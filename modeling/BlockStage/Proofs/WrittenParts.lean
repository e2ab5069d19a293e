import BlockStage.Block
import BlockStage.Proofs.RecordShapes

/-!
What the parts of a text stand for, said of the tree alone. Each relation here is what one decoder
gives on values that are JSON all through (`Decoder.Reads`), and a relation for the items of a list
or an object gives one for the whole.
-/

namespace BlockStage.Json

/-! ## Relations -/

namespace Node

/-- A number, whole or not. -/
inductive IsFloat : Node → Float → Prop where
  | whole (n : Int) : IsFloat (.number (.ok (.integer n))) (.ofInt n)
  | float (x : Float) : IsFloat (.number (.ok (.float x))) x

/-- A whole number of 64 bits without sign. -/
def IsSize (node : Node) (n : Nat) : Prop :=
  node = .number (.ok (.integer n)) ∧ n < 18446744073709551616

/-- Null stands for absence. -/
inductive OrNull (R : Node → α → Prop) : Node → Option α → Prop where
  | null : OrNull R .null none
  | given {node : Node} {a : α} (hnode : node ≠ .null) (h : R node a) : OrNull R node (some a)

/-- A list has an item for each of its nodes. -/
def ListOf (R : Node → α → Prop) (node : Node) (as : List α) : Prop :=
  ∃ items, node = .list items none ∧ List.Forall₂ R items as

/-- An object whose values all stand for something. Of a repeated key the last value counts. -/
def NamedBy (R : Node → α → Prop) (node : Node) (m : Named α) : Prop :=
  ∃ members, node = .object members none ∧ (∀ member ∈ members, ∃ a, R member.2 a) ∧
    ∀ key, Option.Rel R (lastMember? key members) m[key]?

end Node

/-- What a part stands for; one that is not there stands for the default. -/
def Written (R : Node → α → Prop) (default : α) : Option Node → α → Prop
  | some node, a => R node a
  | none, a => a = default

/-- On values that are JSON all through, the decoder gives what the relation says. -/
def Decoder.Reads (decode : Decoder α) (R : Node → α → Prop) : Prop :=
  ∀ depth node a, node.check depth = .ok () → (decode depth node = .ok a ↔ R node a)

section

variable {decode : Decoder α} {R : Node → α → Prop}

theorem Given.unique {required : Bool} {default a b : α} {depth : Nat} {part : Option Node}
    (ha : Given decode required default depth part a)
    (hb : Given decode required default depth part b) : a = b := by
  cases part with
  | none => exact ha.2.trans hb.2.symm
  | some node => exact Except.ok.inj (Eq.trans (Eq.symm ha) hb)

theorem Given.written {required : Bool} {default a : α} {depth : Nat} {part : Option Node}
    (h : Given decode required default depth part a)
    (hdecode : ∀ node, decode depth node = .ok a → R node a) : Written R default part a := by
  rcases h.cases with ⟨rfl, -, rfl⟩ | ⟨node, rfl, hnode⟩
  · rfl
  · exact hdecode node hnode

/-- What a decoder makes of a part is what the relation says of it. -/
theorem Decoder.Reads.given_iff (h : decode.Reads R) {depth : Nat} {part : Option Node}
    (hcheck : ∀ node, part = some node → node.check depth = .ok ()) (default a : α) :
    Given decode false default depth part a ↔ Written R default part a := by
  cases part with
  | none => exact and_iff_right rfl
  | some node => exact h depth node a (hcheck node rfl)

/-- On such a value a relation that a decoder reads has one result. -/
theorem Decoder.Reads.unique (h : decode.Reads R) {depth : Nat} {node : Node} {a b : α}
    (hcheck : node.check depth = .ok ()) (ha : R node a) (hb : R node b) : a = b := by
  have hab := ((h depth node a hcheck).mpr ha).symm.trans ((h depth node b hcheck).mpr hb)
  exact Except.ok.inj hab

theorem exists_forall₂_of_forall_mem {R : α → β → Prop} {as : List α}
    (h : ∀ a ∈ as, ∃ b, R a b) : ∃ bs, List.Forall₂ R as bs := by
  induction as with
  | nil => exact ⟨[], .nil⟩
  | cons a as ih =>
    obtain ⟨⟨b, hb⟩, has⟩ := List.forall_mem_cons.mp h
    obtain ⟨bs, hbs⟩ := ih has
    exact ⟨b :: bs, .cons hb hbs⟩

/-- Items that are related stay so under a relation that holds for each of them. -/
theorem forall₂_congr_of_mem {R S : α → β → Prop} {as : List α} {bs : List β}
    (h : ∀ a ∈ as, ∀ b, R a b ↔ S a b) : List.Forall₂ R as bs ↔ List.Forall₂ S as bs := by
  induction as generalizing bs with
  | nil => cases bs <;> simp
  | cons a as ih =>
    obtain ⟨ha, has⟩ := List.forall_mem_cons.mp h
    simp only [List.forall₂_cons_left_iff, ha, ih has]

/-! ## Numbers -/

theorem Decoder.float_eq_ok_iff {depth : Nat} {node : Node} {x : Float} :
    float depth node = .ok x ↔ node.IsFloat x := by
  constructor
  · intro h
    unfold float at h
    split at h
    · cases h
      exact .whole _
    · cases h
      exact .float _
    · cases h
  · intro h
    cases h <;> rfl

theorem Decoder.size_eq_ok_iff {depth : Nat} {node : Node} {n : Nat} :
    size depth node = .ok n ↔ node.IsSize n := by
  simp only [size, bind_eq_ok_iff]
  constructor
  · rintro ⟨k, hwhole, hn⟩
    cases hn
    unfold whole at hwhole
    split at hwhole
    · split at hwhole
      · next hrange =>
        cases hwhole
        exact ⟨by rw [Int.toNat_of_nonneg hrange.1], by omega⟩
      · cases hwhole
    · cases hwhole
  · rintro ⟨rfl, hn⟩
    exact ⟨n, if_pos ⟨by omega, by omega⟩, rfl⟩

/-! ## Containers -/

theorem Decoder.Reads.optional (h : decode.Reads R) :
    (Decoder.optional decode).Reads (Node.OrNull R) := by
  intro depth node a? hcheck
  rw [optional_eq_ok_iff]
  constructor
  · rintro (⟨rfl, rfl⟩ | ⟨hnode, a, ha, rfl⟩)
    · exact .null
    · exact .given hnode ((h depth node a hcheck).mp ha)
  · intro ha
    cases ha with
    | null => exact .inl ⟨rfl, rfl⟩
    | @given _ a hnode ha => exact .inr ⟨hnode, a, (h depth node a hcheck).mpr ha, rfl⟩

theorem Decoder.Reads.list (h : decode.Reads R) : (Decoder.list decode).Reads (Node.ListOf R) := by
  intro depth node as hcheck
  cases node with
  | list items break? =>
    obtain ⟨inner, henter, hitems, rfl⟩ := (Node.check_list_eq_ok_iff _ _ _).mp hcheck
    have hcongr : List.Forall₂ (fun node a => decode inner node = .ok a) items as ↔
        List.Forall₂ R items as :=
      forall₂_congr_of_mem fun node hnode a =>
        h inner node a (Node.check_of_mem_items hitems node hnode)
    simp only [Decoder.list, bind_eq_ok_iff, items_eq_ok_iff, henter, Except.ok.injEq,
      exists_eq_left', stopAt_eq_ok_iff, Node.ListOf, Node.list.injEq, and_true]
    constructor
    · rintro ⟨as', has, _, -, hpure⟩
      cases hpure
      exact hcongr.mp has
    · exact fun has => ⟨as, hcongr.mpr has, (), trivial, rfl⟩
  | _ => simp [Decoder.list, Node.ListOf]

/-! ### Objects -/

theorem getElem?_ofList_cons (pair : String × α) (l : List (String × α)) (key : String) :
    (Std.ExtTreeMap.ofList (pair :: l) : Named α)[key]? =
      (Std.ExtTreeMap.ofList l : Named α)[key]?.or
        (if pair.1 = key then some pair.2 else none) := by
  obtain ⟨k, a⟩ := pair
  rw [Std.ExtTreeMap.ofList_cons, Std.ExtTreeMap.ofList_eq_insertMany_empty,
    Std.ExtTreeMap.getElem?_insertMany_list, Std.ExtTreeMap.getElem?_insertMany_list,
    Std.ExtTreeMap.getElem?_insert]
  simp

/-- Under each key the map has what the last member with the key stands for. -/
theorem rel_lastMember?_ofList {members : List (Except Fault String × Node)}
    {pairs : List (String × α)}
    (h : List.Forall₂ (fun member pair => member.1 = .ok pair.1 ∧ R member.2 pair.2) members pairs)
    (key : String) :
    Option.Rel R (lastMember? key members) (Std.ExtTreeMap.ofList pairs : Named α)[key]? := by
  induction h with
  | nil => exact .none
  | @cons member pair members pairs hpair _ ih =>
    obtain ⟨written, node⟩ := member
    obtain ⟨rfl, hnode⟩ := hpair
    rw [getElem?_ofList_cons, lastMember?]
    generalize lastMember? key members = last? at ih ⊢
    generalize (Std.ExtTreeMap.ofList pairs : Named α)[key]? = value? at ih ⊢
    cases ih with
    | some hlast => exact .some hlast
    | none =>
      by_cases hkey : pair.1 = key
      · simpa [hkey, Except.toOption] using hnode
      · simp [hkey, Except.toOption]

theorem exists_rel_of_mem {R : α → β → Prop} {as : List α} {bs : List β}
    (h : List.Forall₂ R as bs) {a : α} (ha : a ∈ as) : ∃ b ∈ bs, R a b := by
  induction h with
  | nil => simp at ha
  | @cons first b as bs hfirst _ ih =>
    rcases List.mem_cons.mp ha with rfl | ha
    · exact ⟨b, by simp, hfirst⟩
    · obtain ⟨b', hmem, hrel⟩ := ih ha
      exact ⟨b', by simp [hmem], hrel⟩

theorem rel_unique {o : Option Node} {x y : Option α} (hx : Option.Rel R o x)
    (hy : Option.Rel R o y) (h : ∀ node, o = some node → ∀ a b, R node a → R node b → a = b) :
    x = y := by
  cases hx with
  | none =>
    cases hy
    rfl
  | @some node a ha =>
    cases hy with
    | @some _ b hb => rw [h node rfl a b ha hb]

/-- An object is decoded to the map that has under each key what its last value stands for. -/
theorem Decoder.Reads.named (h : decode.Reads R) :
    (Block.decodeNamed decode).Reads (Node.NamedBy R) := by
  intro depth node m hcheck
  rw [Block.decodeNamed, bind_eq_ok_iff]
  constructor
  · rintro ⟨pairs, hpairs, hm⟩
    obtain ⟨members, rfl, hmembers⟩ := object_eq_ok hpairs
    obtain ⟨inner, henter, hcheck, -⟩ := (Node.check_object_eq_ok_iff _ _ _).mp hcheck
    rw [← enter_eq_ok henter] at hmembers
    have hrel : List.Forall₂ (fun member pair => member.1 = .ok pair.1 ∧ R member.2 pair.2)
        members pairs := by
      refine (forall₂_congr_of_mem fun member hmember pair => ?_).mp hmembers
      rw [h inner member.2 pair.2 (Node.check_of_mem_members hcheck member hmember).2]
    cases hm
    refine ⟨members, rfl, fun member hmember => ?_, rel_lastMember?_ofList hrel⟩
    obtain ⟨pair, -, -, hR⟩ := exists_rel_of_mem hrel hmember
    exact ⟨pair.2, hR⟩
  · rintro ⟨members, rfl, hmembers, hkeys⟩
    obtain ⟨inner, henter, hcheck, -⟩ := (Node.check_object_eq_ok_iff _ _ _).mp hcheck
    have hpair : ∀ member ∈ members, ∃ pair : String × α,
        member.1 = .ok pair.1 ∧ R member.2 pair.2 := by
      intro member hmember
      obtain ⟨⟨key, hkey⟩, -⟩ := Node.check_of_mem_members hcheck member hmember
      obtain ⟨a, ha⟩ := hmembers member hmember
      exact ⟨(key, a), hkey, ha⟩
    obtain ⟨pairs, hpairs⟩ := exists_forall₂_of_forall_mem hpair
    have hsame : (.ofList pairs : Named α) = m := by
      refine Std.ExtTreeMap.ext_getElem? fun {key} =>
        rel_unique (rel_lastMember?_ofList hpairs key) (hkeys key) fun node hlast a b ha hb => ?_
      have hnode := (Node.check_of_mem_members hcheck _ (mem_of_lastMember? hlast)).2
      exact h.unique hnode ha hb
    have hdecoded : List.Forall₂
        (fun member pair => member.1 = .ok pair.1 ∧ decode inner member.2 = .ok pair.2)
        members pairs := by
      refine (forall₂_congr_of_mem fun member hmember pair => ?_).mp hpairs
      rw [h inner member.2 pair.2 (Node.check_of_mem_members hcheck member hmember).2]
    refine ⟨pairs, ?_, by rw [← hsame]; rfl⟩
    rw [object, bind_eq_ok_iff]
    refine ⟨inner, henter, bind_eq_ok_iff.mpr ⟨pairs, members_eq_ok_iff.mpr hdecoded, rfl⟩⟩

end

end BlockStage.Json
