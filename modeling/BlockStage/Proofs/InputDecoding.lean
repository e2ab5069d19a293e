import BlockStage.Proofs.SignatureDecoding
import BlockStage.Proofs.WrittenParts

/-!
Which JSON values are inputs. An input is a list: a shadow number, what fills the input, and then
anything at all. It is filled with nothing, with a block, or with a list of plain values that starts
with a kind; the kind says what the values after it are.
-/

namespace BlockStage

open Json (Node bind_eq_ok_iff stopAt_eq_ok_iff)

namespace Json

/-- A whole number of 32 bits with sign. -/
def Node.IsInt32 (node : Node) : Prop :=
  ∃ n : Int, node = .number (.ok (.integer n)) ∧ -2147483648 ≤ n ∧ n < 2147483648

theorem Decoder.exists_int32_iff (depth : Nat) (node : Node) :
    (∃ n, int32 depth node = .ok n) ↔ node.IsInt32 := by
  constructor
  · rintro ⟨n, h⟩
    unfold int32 whole at h
    split at h
    · next n =>
      split at h
      · next hrange => exact ⟨n, rfl, by omega, by omega⟩
      · cases h
    · cases h
  · rintro ⟨n, rfl, hlow, hhigh⟩
    exact ⟨n, if_pos ⟨by omega, by omega⟩⟩

theorem Node.IsInt32.check {node : Node} (h : node.IsInt32) (depth : Nat) :
    node.check depth = .ok () := by
  obtain ⟨n, rfl, _⟩ := h
  rfl

end Json

theorem Value.mapM_ofNode?_iff (nodes : List Node) (values : List Value) :
    nodes.mapM Value.ofNode? = some values ↔ List.Forall₂ Value.IsLiteral nodes values := by
  induction nodes generalizing values with
  | nil => cases values <;> simp
  | cons node nodes ih =>
    rw [List.mapM_cons, List.forall₂_cons_left_iff]
    simp only [Option.bind_eq_bind, Option.bind_eq_some_iff, Value.ofNode?_eq_some_iff, ih]
    constructor
    · rintro ⟨v, hv, rest, hrest, hvalues⟩
      exact ⟨v, rest, hv, hrest, (Option.some.inj hvalues).symm⟩
    · rintro ⟨v, rest, hv, hrest, rfl⟩
      exact ⟨v, hv, rest, hrest, rfl⟩

theorem Value.IsLiteral.eq_of_integer {node : Node} {n : Int64}
    (h : Value.IsLiteral node (.integer n)) : node = .number (.ok (.integer n.toInt)) := by
  cases h with
  | integer => rfl

/-- A whole number that fits in 64 bits stands for nothing else. -/
theorem Value.IsLiteral.exists_integer {k : Int} {v : Value}
    (h : Value.IsLiteral (.number (.ok (.integer k))) v) (hk : (Int64.ofInt k).toInt = k) :
    ∃ n : Int64, n.toInt = k ∧ v = .integer n := by
  cases h with
  | integer n => exact ⟨n, rfl, rfl⟩
  | wide hwide => exact absurd hk (hwide _)

namespace Input

/-! ## Lists of values -/

/-- The input that a list of values stands for: by its kind a value, or something that goes by a
name and an id. What comes after these does not count. -/
inductive Holds : List Value → Input → Prop where
  | value {kind : Int64} (hkind : 4 ≤ kind ∧ kind ≤ 10) (v : Value) (rest : List Value) :
      Holds (.integer kind :: v :: rest) (.value v)
  | broadcastRef (name id : Value) (rest : List Value) :
      Holds (.integer 11 :: name :: id :: rest) (.broadcastRef ⟨name.display, id.display⟩)
  | variableRef (name id : Value) (rest : List Value) :
      Holds (.integer 12 :: name :: id :: rest) (.variableRef ⟨name.display, id.display⟩)
  | listRef (name id : Value) (rest : List Value) :
      Holds (.integer 13 :: name :: id :: rest) (.listRef ⟨name.display, id.display⟩)

theorem kind_cases {kind : Int64} (h : 11 ≤ kind ∧ kind ≤ 13) :
    kind = 11 ∨ kind = 12 ∨ kind = 13 := by
  simp only [Int64.le_iff_toInt_le, ← Int64.toInt_inj] at h ⊢
  have h11 : (11 : Int64).toInt = 11 := rfl
  have h12 : (12 : Int64).toInt = 12 := rfl
  have h13 : (13 : Int64).toInt = 13 := rfl
  omega

theorem ofValues_eq_ok_iff (values : List Value) (input : Input) :
    ofValues values = .ok input ↔ Holds values input := by
  constructor
  · intro h
    unfold ofValues at h
    split at h
    · next kind first rest =>
      split at h
      · next hkind =>
        cases h
        exact .value hkind first rest
      · split at h
        · next hkind =>
          split at h
          · cases h
          · next id more =>
            rcases kind_cases hkind with rfl | rfl | rfl
            · cases h
              exact .broadcastRef first id more
            · cases h
              exact .variableRef first id more
            · cases h
              exact .listRef first id more
        · cases h
    · cases h
    · cases h
  · intro h
    cases h with
    | value hkind v rest => exact if_pos hkind
    | broadcastRef | variableRef | listRef => rfl

/-! ## What fills an input -/

/-- What a node in second place fills an input with. Without one the input is empty. -/
inductive FilledBy : Option Node → Input → Prop where
  | absent : FilledBy none .empty
  | null : FilledBy (some .null) .empty
  | block (id : String) : FilledBy (some (.text (.ok id))) (.block id)
  | values {nodes : List Node} {values : List Value} {input : Input}
      (hvalues : List.Forall₂ Value.IsLiteral nodes values) (hholds : Holds values input) :
      FilledBy (some (.list nodes none)) input

theorem decodeFilling_eq_ok_iff (depth : Nat) (node : Node) (input : Input) :
    decodeFilling depth node = .ok input ↔
      node.check depth = .ok () ∧ FilledBy (some node) input := by
  constructor
  · intro h
    unfold decodeFilling at h
    split at h
    · cases h
      exact ⟨rfl, .null⟩
    · obtain ⟨_, hcheck, h⟩ := bind_eq_ok_iff.mp h
      refine ⟨hcheck, ?_⟩
      split at h
      · cases h
        exact .block _
      · next nodes break? =>
        obtain ⟨_, _, _, rfl⟩ := (Node.check_list_eq_ok_iff _ _ _).mp hcheck
        split at h
        · next values hvalues =>
          rw [Value.mapM_ofNode?_iff] at hvalues
          split at h
          · next hinput =>
            cases h
            exact .values hvalues ((ofValues_eq_ok_iff _ _).mp hinput)
          · cases h
        · cases h
      · cases h
  · rintro ⟨hcheck, h⟩
    cases h with
    | null => rfl
    | block id => rfl
    | @values nodes values _ hvalues hholds =>
      have hnodes := (Value.mapM_ofNode?_iff nodes values).mpr hvalues
      have hinput := (ofValues_eq_ok_iff values input).mpr hholds
      rw [decodeFilling, bind_eq_ok_iff]
      exact ⟨(), hcheck, by simp only [hnodes, hinput]; rfl⟩

/-- What the items of a list fill an input with. The first is a shadow number, if it is there. -/
@[mk_iff]
structure WrittenBy (items : List Node) (input : Input) : Prop where
  shadow : ∀ node, items[0]? = some node → node.IsInt32
  filling : FilledBy items[1]? input

theorem filledBy_none_iff (input : Input) : FilledBy none input ↔ empty = input := by
  constructor
  · intro h
    cases h
    rfl
  · rintro rfl
    exact .absent

/-! The decoder tells lists of three lengths apart. -/

theorem decode_nil_eq_ok_iff (depth : Nat) (break? : Option Json.Break) (input : Input) :
    decode depth (.list [] break?) = .ok input ↔
      ∃ inner, Json.enter depth = .ok inner ∧ break? = none ∧ empty = input := by
  simp only [decode, bind_eq_ok_iff, stopAt_eq_ok_iff, pure, Except.pure, Except.ok.injEq,
    exists_const]

theorem decode_singleton_eq_ok_iff (depth : Nat) (shadow : Node) (break? : Option Json.Break)
    (input : Input) : decode depth (.list [shadow] break?) = .ok input ↔
      ∃ inner, Json.enter depth = .ok inner ∧ shadow.IsInt32 ∧ break? = none ∧ empty = input := by
  simp only [decode, bind_eq_ok_iff, stopAt_eq_ok_iff, pure, Except.pure, Except.ok.injEq,
    exists_const, exists_and_right, Json.Decoder.exists_int32_iff]

theorem decode_cons_cons_eq_ok_iff (depth : Nat) (shadow filling : Node) (others : List Node)
    (break? : Option Json.Break) (input : Input) :
    decode depth (.list (shadow :: filling :: others) break?) = .ok input ↔
      ∃ inner, Json.enter depth = .ok inner ∧ shadow.IsInt32 ∧
        (filling.check inner = .ok () ∧ FilledBy (some filling) input) ∧
        Node.checkItems inner others = .ok () ∧ break? = none := by
  simp only [decode, bind_eq_ok_iff, stopAt_eq_ok_iff, pure, Except.pure, Except.ok.injEq,
    exists_and_right, Json.Decoder.exists_int32_iff, decodeFilling_eq_ok_iff, Unique.exists_iff]
  constructor
  · rintro ⟨inner, henter, hshadow, _, hfilling, hothers, hbreak, rfl⟩
    exact ⟨inner, henter, hshadow, hfilling, hothers, hbreak⟩
  · rintro ⟨inner, henter, hshadow, hfilling, hothers, hbreak⟩
    exact ⟨inner, henter, hshadow, input, hfilling, hothers, hbreak, rfl⟩

theorem decode_list_eq_ok_iff (depth : Nat) (items : List Node) (break? : Option Json.Break)
    (input : Input) : decode depth (.list items break?) = .ok input ↔
      (Node.list items break?).check depth = .ok () ∧ WrittenBy items input := by
  rw [Node.check_list_eq_ok_iff, writtenBy_iff]
  cases items with
  | nil =>
    rw [decode_nil_eq_ok_iff, ← filledBy_none_iff]
    constructor
    · rintro ⟨inner, henter, hbreak, hfilling⟩
      exact ⟨⟨inner, henter, rfl, hbreak⟩, by simp, hfilling⟩
    · rintro ⟨⟨inner, henter, -, hbreak⟩, -, hfilling⟩
      exact ⟨inner, henter, hbreak, hfilling⟩
  | cons shadow rest =>
    have hfirst : (∀ node, (shadow :: rest)[0]? = some node → node.IsInt32) ↔ shadow.IsInt32 := by
      simp
    cases rest with
    | nil =>
      rw [decode_singleton_eq_ok_iff, ← filledBy_none_iff, hfirst]
      constructor
      · rintro ⟨inner, henter, hshadow, hbreak, hfilling⟩
        have hitems : Node.checkItems inner [shadow] = .ok () :=
          (Node.checkItems_cons_eq_ok_iff _ _ _).mpr ⟨hshadow.check inner, rfl⟩
        exact ⟨⟨inner, henter, hitems, hbreak⟩, hshadow, hfilling⟩
      · rintro ⟨⟨inner, henter, -, hbreak⟩, hshadow, hfilling⟩
        exact ⟨inner, henter, hshadow, hbreak, hfilling⟩
    | cons filling others =>
      rw [decode_cons_cons_eq_ok_iff, hfirst]
      simp only [Node.checkItems_cons_eq_ok_iff]
      constructor
      · rintro ⟨inner, henter, hshadow, ⟨hcheck, hfilling⟩, hothers, hbreak⟩
        exact ⟨⟨inner, henter, ⟨hshadow.check inner, hcheck, hothers⟩, hbreak⟩, hshadow, hfilling⟩
      · rintro ⟨⟨inner, henter, ⟨-, hcheck, hothers⟩, hbreak⟩, hshadow, hfilling⟩
        exact ⟨inner, henter, hshadow, ⟨hcheck, hfilling⟩, hothers, hbreak⟩

/-- All of a node is read, also what comes after the second item. -/
theorem decode_eq_ok_iff (depth : Nat) (node : Node) (input : Input) :
    decode depth node = .ok input ↔
      node.check depth = .ok () ∧ ∃ items, node = .list items none ∧ WrittenBy items input := by
  cases node with
  | list items break? =>
    rw [decode_list_eq_ok_iff]
    refine and_congr_right fun hcheck => ?_
    obtain ⟨_, _, _, rfl⟩ := (Node.check_list_eq_ok_iff _ _ _).mp hcheck
    simp
  | _ => simp [decode]

/-! ## The grammar by positions -/

/-- A list of plain values that fills an input: a kind from 4 to 10 with one value after it at
least, or from 11 to 13 with two. -/
structure IsFilling (nodes : List Node) : Prop where
  literals : ∀ node ∈ nodes, ∃ v, Value.IsLiteral node v
  two_le : 2 ≤ nodes.length
  kind : ∃ k : Int, nodes[0]? = some (.number (.ok (.integer k))) ∧
    (4 ≤ k ∧ k ≤ 10 ∨ 11 ≤ k ∧ k ≤ 13 ∧ 3 ≤ nodes.length)

/-- A list that is an input: in first place, if there is one, a whole number of 32 bits; in second
place, if there is one, null, a text or a list that fills an input. -/
structure IsAccepted (items : List Node) : Prop where
  shadow : ∀ node, items[0]? = some node → node.IsInt32
  filling : ∀ node, items[1]? = some node →
    node = .null ∨ (∃ id, node = .text (.ok id)) ∨
      ∃ nodes, node = .list nodes none ∧ IsFilling nodes

theorem IsFilling.of_holds {nodes : List Node} {values : List Value} {input : Input}
    (hvalues : List.Forall₂ Value.IsLiteral nodes values) (hholds : Holds values input) :
    IsFilling nodes := by
  have hliterals : ∀ node ∈ nodes, ∃ v, Value.IsLiteral node v := fun node hnode => by
    obtain ⟨v, -, hv⟩ := Json.exists_rel_of_mem hvalues hnode
    exact ⟨v, hv⟩
  have hlength := hvalues.length_eq
  cases hholds with
  | @value kind hkind v rest =>
    rw [Int64.le_iff_toInt_le, Int64.le_iff_toInt_le] at hkind
    obtain ⟨first, others, hfirst, _, rfl⟩ := List.forall₂_cons_right_iff.mp hvalues
    obtain rfl := hfirst.eq_of_integer
    refine ⟨hliterals, ?_, kind.toInt, rfl, .inl hkind⟩
    rw [hlength]
    simp
  | broadcastRef | variableRef | listRef =>
    obtain ⟨first, others, hfirst, _, rfl⟩ := List.forall₂_cons_right_iff.mp hvalues
    obtain rfl := hfirst.eq_of_integer
    refine ⟨hliterals, ?_, _, rfl, .inr ⟨by decide, by decide, ?_⟩⟩ <;>
    · rw [hlength]
      simp

theorem exists_holds {kind : Int64} (first : Value) {rest : List Value}
    (h : 4 ≤ kind ∧ kind ≤ 10 ∨ 11 ≤ kind ∧ kind ≤ 13 ∧ rest ≠ []) :
    ∃ input, Holds (.integer kind :: first :: rest) input := by
  rcases h with hkind | ⟨hlow, hhigh, hrest⟩
  · exact ⟨_, .value hkind first rest⟩
  · obtain ⟨id, more, rfl⟩ := List.exists_cons_of_ne_nil hrest
    rcases kind_cases ⟨hlow, hhigh⟩ with rfl | rfl | rfl
    · exact ⟨_, .broadcastRef first id more⟩
    · exact ⟨_, .variableRef first id more⟩
    · exact ⟨_, .listRef first id more⟩

theorem exists_filledBy_list_iff (nodes : List Node) :
    (∃ input, FilledBy (some (.list nodes none)) input) ↔ IsFilling nodes := by
  constructor
  · rintro ⟨input, h⟩
    cases h with
    | values hvalues hholds => exact .of_holds hvalues hholds
  · rintro ⟨hliterals, htwo, k, hfirst, hk⟩
    obtain ⟨values, hvalues⟩ := Json.exists_forall₂_of_forall_mem hliterals
    have hlength := hvalues.length_eq
    cases hvalues with
    | nil => cases hfirst
    | @cons node v nodes values hv hvalues =>
      obtain rfl : node = .number (.ok (.integer k)) := Option.some.inj hfirst
      have hfits : (Int64.ofInt k).toInt = k := Int64.toInt_ofInt_of_le (by omega) (by omega)
      obtain ⟨kind, hkind, rfl⟩ := hv.exists_integer hfits
      subst hkind
      cases hvalues with
      | nil => simp at htwo
      | @cons second w others rest hw hrest =>
        have hkinds : 4 ≤ kind ∧ kind ≤ 10 ∨ 11 ≤ kind ∧ kind ≤ 13 ∧ rest ≠ [] := by
          simp only [Int64.le_iff_toInt_le]
          refine hk.imp_right fun ⟨hlow, hhigh, hthree⟩ => ⟨hlow, hhigh, ?_⟩
          rintro rfl
          simp [hlength] at hthree
        obtain ⟨input, hholds⟩ := exists_holds w hkinds
        exact ⟨input, .values (.cons (.integer kind) (.cons hw hrest)) hholds⟩

theorem exists_writtenBy_iff (items : List Node) :
    (∃ input, WrittenBy items input) ↔ IsAccepted items := by
  constructor
  · rintro ⟨input, hshadow, hfilling⟩
    refine ⟨hshadow, fun node hnode => ?_⟩
    rw [hnode] at hfilling
    cases hfilling with
    | null => exact .inl rfl
    | block id => exact .inr (.inl ⟨id, rfl⟩)
    | values hvalues hholds => exact .inr (.inr ⟨_, rfl, .of_holds hvalues hholds⟩)
  · rintro ⟨hshadow, hfilling⟩
    cases hsecond : items[1]? with
    | none => exact ⟨.empty, hshadow, hsecond ▸ .absent⟩
    | some node =>
      rcases hfilling node hsecond with rfl | ⟨id, rfl⟩ | ⟨nodes, rfl, hnodes⟩
      · exact ⟨.empty, hshadow, hsecond ▸ .null⟩
      · exact ⟨.block id, hshadow, hsecond ▸ .block id⟩
      · obtain ⟨input, hinput⟩ := (exists_filledBy_list_iff nodes).mpr hnodes
        exact ⟨input, hshadow, hsecond ▸ hinput⟩

theorem FilledBy.block?_eq_some_iff {filling : Option Node} {input : Input}
    (h : FilledBy filling input) (id : String) :
    input.block? = some id ↔ filling = some (.text (.ok id)) := by
  cases h with
  | absent | null => simp [block?]
  | block s => simp [block?]
  | values hvalues hholds => cases hholds <;> simp [block?]

/-- **Decoding of inputs.** A JSON value is decoded as an input exactly if it is an accepted list.
What the second item fills the input with is the input, and the input has a block exactly if that
item is a text. -/
theorem decode_grammar (depth : Nat) (node : Node) :
    ((∃ input, decode depth node = .ok input) ↔
      node.check depth = .ok () ∧ ∃ items, node = .list items none ∧ IsAccepted items) ∧
    ∀ input, decode depth node = .ok input → ∃ items, node = .list items none ∧
      FilledBy items[1]? input ∧
      ∀ id, input.block? = some id ↔ items[1]? = some (.text (.ok id)) := by
  refine ⟨?_, fun input h => ?_⟩
  · simp only [decode_eq_ok_iff, ← exists_writtenBy_iff]
    constructor
    · rintro ⟨input, hcheck, items, hnode, hinput⟩
      exact ⟨hcheck, items, hnode, input, hinput⟩
    · rintro ⟨hcheck, items, hnode, input, hinput⟩
      exact ⟨input, hcheck, items, hnode, hinput⟩
  · obtain ⟨_, items, hnode, hinput⟩ := (decode_eq_ok_iff depth node input).mp h
    exact ⟨items, hnode, hinput.filling, hinput.filling.block?_eq_some_iff⟩

/-- What stands under a block is not looked at. -/
example : (Json.decodeText decode "[3, \"reporter\", [4, \"0\"]]").toOption.bind block? =
    some "reporter" := by
  decide +kernel

end Input

end BlockStage
