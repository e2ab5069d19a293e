import BlockStage.Proofs.FaultTexts
import BlockStage.Proofs.IndexMeaning

/-!
No prototype disappears without a word. Each prototype of a map either provides the signature of
its code or gives one warning, which tells why it is left out, and nothing else gives a warning. A
step of the index adds one signature or one warning for a prototype, and neither for another block.
-/

namespace BlockStage

/-- The id of the prototype that a warning is about. -/
def Warning.id : Warning → String
  | noMutation id => id
  | noCode id => id
  | repeated id _ => id
  | malformed error => error.block

theorem Warning.message_names_id (w : Warning) :
    ∃ lead rest, w.message = lead ++ w.id ++ rest := by
  cases w with
  | noMutation id =>
    refine ⟨"prototype ", " has no mutation, skipping", ?_⟩
    simp only [Warning.message, Warning.id]
  | noCode id =>
    refine ⟨"prototype ", " has no proccode, skipping", ?_⟩
    simp only [Warning.message, Warning.id]
  | repeated id code =>
    refine ⟨"prototype ", " redefines " ++ Text.quote code ++ ", keeping the first", ?_⟩
    simp only [Warning.message, Warning.id, String.append_assoc]
  | malformed error =>
    refine ⟨"malformed mutation on block ", ": " ++ error.fault.reason ++ ", skipping", ?_⟩
    unfold Warning.message MutationError.message Warning.id
    simp only [String.append_assoc]

namespace Warning

/-- Warnings for one reason. They quote the same code, or their faults are of the same check. -/
def SameReason : Warning → Warning → Prop
  | noMutation _, noMutation _ => True
  | noCode _, noCode _ => True
  | repeated _ code, repeated _ other => Text.quote code = Text.quote other
  | malformed error, malformed other => error.fault.SameCheck other.fault
  | _, _ => False

theorem message_malformed_ne {e : MutationError} {w : Warning} (h : ∀ other, w ≠ malformed other) :
    (malformed e).message ≠ w.message := by
  intro hmessage
  have hchars := congrArg String.toList hmessage
  cases w with
  | malformed other => exact h other rfl
  | noMutation id | noCode id | repeated id code =>
    unfold message MutationError.message at hchars
    simp at hchars

/-- Two warnings about one prototype have the same text only if they have the same reason. -/
theorem sameReason_of_message_eq {v w : Warning} (hid : v.id = w.id)
    (h : v.message = w.message) : v.SameReason w := by
  cases v with
  | malformed e =>
    cases w with
    | malformed other =>
      unfold message at h
      exact MutationError.sameCheck_of_message_eq hid ((String.append_left_inj _).mp h)
    | noMutation | noCode | repeated => exact message_malformed_ne (by simp) h
  | noMutation | noCode | repeated =>
    cases w with
    | malformed other => exact message_malformed_ne (by simp) h.symm
    | noMutation | noCode | repeated =>
      simp only [id] at hid
      subst hid
      have hchars := congrArg String.toList h
      simp [message, SameReason] at hchars ⊢
      try exact String.toList_inj.mp hchars

end Warning

/-! ## What becomes of a prototype -/

/-- A prototype with a smaller id has the code and a signature. -/
def TakenBefore (blocks : Named Block) (code id : String) : Prop :=
  ∃ first s, IsPrototype blocks code first s ∧ Text.bytes first < Text.bytes id

/-- The signature of a code is the one of prototype `id`. -/
def Provides (blocks : Named Block) (id : String) : Prop :=
  ∃ code s, IsFirstPrototype blocks code id s ∧ (Blocks.ofNamed blocks).signature? code = some s

/-- Why prototype `b` with the given id is left out: the first of the reasons, in this order. -/
inductive LeftOut (blocks : Named Block) (id : String) (b : Block) : Warning → Prop where
  | noMutation (hm : b.mutation = none) : LeftOut blocks id b (.noMutation id)
  | noCode {m : Mutation} (hm : b.mutation = some m) (hc : m.code = none) :
      LeftOut blocks id b (.noCode id)
  | repeated {m : Mutation} {code : String} (hm : b.mutation = some m) (hc : m.code = some code)
      (htaken : TakenBefore blocks code id) : LeftOut blocks id b (.repeated id code)
  | malformed {m : Mutation} {code : String} {e : MutationError} (hm : b.mutation = some m)
      (hc : m.code = some code) (hfree : ¬ TakenBefore blocks code id)
      (he : Signature.ofMutation id m = .error e) : LeftOut blocks id b (.malformed e)

theorem Signature.block_of_ofMutation_error {id : String} {m : Mutation} {e : MutationError}
    (h : Signature.ofMutation id m = .error e) : e.block = id := by
  unfold Signature.ofMutation at h
  split at h
  · cases h
  · cases h
    rfl

theorem LeftOut.id_eq {blocks : Named Block} {id : String} {b : Block} {w : Warning}
    (h : LeftOut blocks id b w) : w.id = id := by
  cases h with
  | noMutation hm => rfl
  | noCode hm hc => rfl
  | repeated hm hc htaken => rfl
  | malformed hm hc hfree he => exact Signature.block_of_ofMutation_error he

namespace Blocks

/-! ## One step of the index -/

theorem readPrototype_eq_ok {signatures : Named Signature} {id code : String} {b : Block}
    {s : Signature} (h : readPrototype signatures id b = .ok (code, s)) :
    ∃ m, b.mutation = some m ∧ m.code = some code ∧ code ∉ signatures ∧
      Signature.decode? m = .ok s := by
  unfold readPrototype at h
  cases hm : b.mutation with
  | none => simp [hm] at h
  | some m =>
    cases hc : m.code with
    | none => simp [hm, hc] at h
    | some c =>
      by_cases hmem : c ∈ signatures
      · simp [hm, hc, hmem] at h
      · cases hd : Signature.decode? m with
        | error fault => simp [hm, hc, hmem, Signature.ofMutation, hd] at h
        | ok s' =>
          simp only [hm, hc, hmem, if_false, Signature.ofMutation, hd, Except.ok.injEq,
            Prod.mk.injEq] at h
          obtain ⟨rfl, rfl⟩ := h
          exact ⟨m, rfl, hc, hmem, hd⟩

/-- A prototype adds one signature or one warning, and no other block adds anything. -/
theorem size_indexPrototype (index : Named Signature × List Warning) (id : String) (b : Block) :
    (indexPrototype index id b).1.size + (indexPrototype index id b).2.length =
      index.1.size + index.2.length + (if b.opcode == prototypeOpcode then 1 else 0) := by
  by_cases hop : b.opcode = prototypeOpcode
  · cases hread : readPrototype index.1 id b with
    | error w =>
      simp only [indexPrototype, hop, if_true, hread, List.length_append, List.length_singleton,
        beq_self_eq_true]
      omega
    | ok entry =>
      obtain ⟨code, s⟩ := entry
      obtain ⟨m, _, _, hnew, _⟩ := readPrototype_eq_ok hread
      have hsize : (index.1.insert code s).size = index.1.size + 1 := by
        rw [Std.ExtTreeMap.size_insert, if_neg (by rwa [Std.ExtTreeMap.contains_iff_mem])]
      simp only [indexPrototype, hop, if_true, hread, beq_self_eq_true, hsize]
      omega
  · simp [indexPrototype, hop]

/-- Signatures and warnings together count the prototypes passed. -/
theorem size_foldl_indexPrototype (l : List (String × Block))
    (index : Named Signature × List Warning) :
    (l.foldl (fun index p => indexPrototype index p.1 p.2) index).1.size +
        (l.foldl (fun index p => indexPrototype index p.1 p.2) index).2.length =
      index.1.size + index.2.length + l.countP fun p => p.2.opcode == prototypeOpcode := by
  induction l generalizing index with
  | nil => simp
  | cons p l ih =>
    have hstep := size_indexPrototype index p.1 p.2
    rw [List.foldl_cons, ih, List.countP_cons]
    omega

/-! ## The warnings, one entry at a time -/

/-- The signatures when the index comes to `id`. -/
def signaturesBefore (blocks : Named Block) (id : String) : Named Signature :=
  ((blocks.toList.filter fun p => p.1 < id).foldl
    (fun index p => indexPrototype index p.1 p.2) (∅, [])).1

/-- The warning for an entry of the map. -/
def warning? (blocks : Named Block) (p : String × Block) : Option Warning :=
  if p.2.opcode = prototypeOpcode then
    match readPrototype (signaturesBefore blocks p.1) p.1 p.2 with
    | .ok _ => none
    | .error w => some w
  else none

theorem toList_ordered (m : Named α) : m.toList.Pairwise fun p q => p.1 < q.1 :=
  Std.ExtTreeMap.ordered_keys_toList.imp (compare_eq_lt_iff _ _).mp

/-- The entries with smaller ids are those that the fold has passed. -/
theorem filter_lt_of_ordered {before after : List (String × α)} {p : String × α}
    (h : (before ++ p :: after).Pairwise fun p q => p.1 < q.1) :
    (before ++ p :: after).filter (fun q => q.1 < p.1) = before := by
  rw [List.pairwise_append, List.pairwise_cons] at h
  obtain ⟨_, ⟨hafter, _⟩, hbefore⟩ := h
  have hkeep : before.filter (fun q => q.1 < p.1) = before := by
    rw [List.filter_eq_self]
    intro q hq
    exact decide_eq_true (hbefore q hq p (by simp))
  have hdrop : (p :: after).filter (fun q => q.1 < p.1) = [] := by
    rw [List.filter_eq_nil_iff]
    intro q hq
    rw [decide_eq_true_eq]
    rcases List.mem_cons.mp hq with rfl | hq
    · exact String.lt_irrefl q.1
    · exact String.lt_asymm (hafter q hq)
  rw [List.filter_append, hkeep, hdrop, List.append_nil]

theorem warnings_indexPrototype (blocks : Named Block) (p : String × Block)
    (index : Named Signature × List Warning) (h : signaturesBefore blocks p.1 = index.1) :
    (indexPrototype index p.1 p.2).2 = index.2 ++ (warning? blocks p).toList := by
  by_cases hop : p.2.opcode = prototypeOpcode
  · cases hread : readPrototype index.1 p.1 p.2 with
    | ok entry => simp [indexPrototype, warning?, hop, h, hread]
    | error w => simp [indexPrototype, warning?, hop, h, hread]
  · simp [indexPrototype, warning?, hop]

/-- The rest of the fold appends the warnings of the rest of the entries. -/
theorem warnings_foldl (blocks : Named Block) (before rest : List (String × Block))
    (hl : blocks.toList = before ++ rest) :
    (blocks.toList.foldl (fun index p => indexPrototype index p.1 p.2) (∅, [])).2 =
      (before.foldl (fun index p => indexPrototype index p.1 p.2) (∅, [])).2 ++
        rest.filterMap (warning? blocks) := by
  induction rest generalizing before with
  | nil => simp [hl]
  | cons p rest ih =>
    have hord := toList_ordered blocks
    rw [hl] at hord
    have hsignatures : signaturesBefore blocks p.1 =
        (before.foldl (fun index p => indexPrototype index p.1 p.2) (∅, [])).1 := by
      rw [signaturesBefore, hl, filter_lt_of_ordered hord]
    have hnext := ih (before ++ [p]) (by rw [hl, List.append_assoc, List.singleton_append])
    rw [hnext, List.foldl_append, List.foldl_cons, List.foldl_nil,
      warnings_indexPrototype blocks p _ hsignatures, List.filterMap_cons]
    cases warning? blocks p with
    | none => rw [Option.toList_none, List.append_nil]
    | some w => rw [Option.toList_some, List.append_assoc, List.singleton_append]

theorem warnings_eq_filterMap (blocks : Named Block) :
    warnings blocks = blocks.toList.filterMap (warning? blocks) := by
  have h := warnings_foldl blocks [] blocks.toList rfl
  rwa [List.foldl_nil, List.nil_append, ← Std.ExtTreeMap.foldl_eq_foldl_toList] at h

/-! ## The warning of a prototype -/

/-- The codes that have a signature when the index comes to `id`. -/
theorem mem_signaturesBefore_iff (blocks : Named Block) (code id : String) :
    code ∈ signaturesBefore blocks id ↔ TakenBefore blocks code id := by
  rw [Std.ExtTreeMap.mem_iff_isSome_getElem?, signaturesBefore, signatures_foldl,
    Std.ExtTreeMap.getElem?_empty, Option.none_or, List.findSome?_isSome_iff]
  simp only [List.mem_filter, decide_eq_true_eq, Option.isSome_iff_exists, signatureUnder?_eq_some]
  constructor
  · rintro ⟨⟨first, b⟩, ⟨hmem, hlt⟩, s, m, hop, hm, hc, hd⟩
    have hb := Std.ExtTreeMap.mem_toList_iff_getElem?_eq_some.mp hmem
    exact ⟨first, s, ⟨b, m, hb, hop, hm, hc, hd⟩, (Text.bytes_lt_bytes_iff first id).mpr hlt⟩
  · rintro ⟨first, s, ⟨b, m, hb, hop, hm, hc, hd⟩, hlt⟩
    have hmem := Std.ExtTreeMap.mem_toList_iff_getElem?_eq_some.mpr hb
    exact ⟨(first, b), ⟨hmem, (Text.bytes_lt_bytes_iff first id).mp hlt⟩, s, m, hop, hm, hc, hd⟩

theorem leftOut_of_readPrototype {blocks : Named Block} {id : String} {b : Block} {w : Warning}
    (h : readPrototype (signaturesBefore blocks id) id b = .error w) : LeftOut blocks id b w := by
  unfold readPrototype at h
  cases hm : b.mutation with
  | none =>
    simp only [hm, Except.error.injEq] at h
    exact h ▸ .noMutation hm
  | some m =>
    cases hc : m.code with
    | none =>
      simp only [hm, hc, Except.error.injEq] at h
      exact h ▸ .noCode hm hc
    | some code =>
      by_cases hmem : code ∈ signaturesBefore blocks id
      · simp only [hm, hc, hmem, if_true, Except.error.injEq] at h
        exact h ▸ .repeated hm hc ((mem_signaturesBefore_iff blocks code id).mp hmem)
      · cases he : Signature.ofMutation id m with
        | ok s => simp [hm, hc, hmem, he] at h
        | error e =>
          simp only [hm, hc, hmem, if_false, he, Except.error.injEq] at h
          have hfree := mt (mem_signaturesBefore_iff blocks code id).mpr hmem
          exact h ▸ .malformed hm hc hfree he

/-- What the index keeps is the first prototype of its code. -/
theorem isFirstPrototype_of_readPrototype {blocks : Named Block} {id code : String} {b : Block}
    {s : Signature} (hb : blocks[id]? = some b) (hop : b.opcode = prototypeOpcode)
    (h : readPrototype (signaturesBefore blocks id) id b = .ok (code, s)) :
    IsFirstPrototype blocks code id s := by
  obtain ⟨m, hm, hc, hfree, hd⟩ := readPrototype_eq_ok h
  refine ⟨⟨b, m, hb, hop, hm, hc, hd⟩, ?_⟩
  intro other s' hother
  rw [← String.not_lt]
  intro hlt
  apply hfree
  rw [mem_signaturesBefore_iff]
  exact ⟨other, s', hother, (Text.bytes_lt_bytes_iff other id).mpr hlt⟩

/-- A prototype that is left out is not the first of any code. -/
theorem not_provides_of_leftOut {blocks : Named Block} {id : String} {b : Block} {w : Warning}
    (hb : blocks[id]? = some b) (h : LeftOut blocks id b w) : ¬ Provides blocks id := by
  rintro ⟨code, s, ⟨⟨b', m', hb', _, hm', hc', hd'⟩, hfirst⟩, _⟩
  rw [hb, Option.some.injEq] at hb'
  subst hb'
  cases h with
  | noMutation hm =>
    rw [hm] at hm'
    cases hm'
  | noCode hm hc =>
    rw [hm, Option.some.injEq] at hm'
    subst hm'
    rw [hc] at hc'
    cases hc'
  | repeated hm hc htaken =>
    rw [hm, Option.some.injEq] at hm'
    subst hm'
    rw [hc, Option.some.injEq] at hc'
    subst hc'
    obtain ⟨first, s₀, hproto, hlt⟩ := htaken
    have hle := hfirst first s₀ hproto
    rw [Text.bytes_lt_bytes_iff] at hlt
    exact absurd hlt (String.not_lt.mpr hle)
  | malformed hm hc hfree he =>
    rw [hm, Option.some.injEq] at hm'
    subst hm'
    simp [Signature.ofMutation, hd'] at he

theorem warning?_eq_some {blocks : Named Block} {id : String} {b : Block} {w : Warning}
    (h : warning? blocks (id, b) = some w) :
    b.opcode = prototypeOpcode ∧ LeftOut blocks id b w := by
  by_cases hop : b.opcode = prototypeOpcode
  · cases hread : readPrototype (signaturesBefore blocks id) id b with
    | ok entry => simp [warning?, hop, hread] at h
    | error w' =>
      simp only [warning?, hop, if_true, hread, Option.some.injEq] at h
      subst h
      exact ⟨hop, leftOut_of_readPrototype hread⟩
  · simp [warning?, hop] at h

/-- A prototype provides a signature or has a warning. -/
theorem provides_or_warning? {blocks : Named Block} {id : String} {b : Block}
    (hb : blocks[id]? = some b) (hop : b.opcode = prototypeOpcode) :
    (Provides blocks id ∧ warning? blocks (id, b) = none) ∨
      ∃ w, LeftOut blocks id b w ∧ warning? blocks (id, b) = some w := by
  cases hread : readPrototype (signaturesBefore blocks id) id b with
  | ok entry =>
    obtain ⟨code, s⟩ := entry
    have hfirst := isFirstPrototype_of_readPrototype hb hop hread
    have hsig := (signature?_ofNamed_iff blocks code s).mpr ⟨id, hfirst⟩
    exact .inl ⟨⟨code, s, hfirst, hsig⟩, by simp [warning?, hop, hread]⟩
  | error w =>
    exact .inr ⟨w, leftOut_of_readPrototype hread, by simp [warning?, hop, hread]⟩

/-! ## The warnings under an id -/

theorem toList_filter_key (m : Named α) (id : String) :
    m.toList.filter (fun p => p.1 == id) = (m[id]?.map fun a => (id, a)).toList := by
  cases hid : m[id]? with
  | none =>
    rw [Option.map_none, Option.toList_none, List.filter_eq_nil_iff]
    rintro ⟨key, a⟩ hmem hkey
    have hkey' : key = id := eq_of_beq hkey
    rw [Std.ExtTreeMap.mem_toList_iff_getElem?_eq_some, hkey', hid] at hmem
    cases hmem
  | some a =>
    have hmem := Std.ExtTreeMap.mem_toList_iff_getElem?_eq_some.mpr hid
    obtain ⟨before, after, hl⟩ := List.append_of_mem hmem
    have hord := toList_ordered m
    rw [hl, List.pairwise_append, List.pairwise_cons] at hord
    obtain ⟨_, ⟨hafter, _⟩, hbefore⟩ := hord
    have hb : before.filter (fun p => p.1 == id) = [] := by
      rw [List.filter_eq_nil_iff]
      intro p hp hkey
      have hlt := hbefore p hp (id, a) (by simp)
      rw [eq_of_beq hkey] at hlt
      exact String.lt_irrefl id hlt
    have ha : after.filter (fun p => p.1 == id) = [] := by
      rw [List.filter_eq_nil_iff]
      intro p hp hkey
      have hlt := hafter p hp
      rw [eq_of_beq hkey] at hlt
      exact String.lt_irrefl id hlt
    simp [hl, hb, ha]

/-- The warnings about the block with the given id. -/
def warningsAbout (blocks : Named Block) (id : String) : List Warning :=
  (warnings blocks).filter fun w => w.id == id

theorem warningsAbout_eq (blocks : Named Block) (id : String) :
    warningsAbout blocks id = (blocks[id]?.bind fun b => warning? blocks (id, b)).toList := by
  have hid (p : String × Block) (w : Warning) (h : warning? blocks p = some w) : w.id = p.1 :=
    (warning?_eq_some h).2.id_eq
  have hswap (l : List (String × Block)) :
      (l.filterMap (warning? blocks)).filter (fun w => w.id == id) =
        (l.filter fun p => p.1 == id).filterMap (warning? blocks) := by
    induction l with
    | nil => rfl
    | cons p l ih =>
      by_cases hp : p.1 == id
      · cases hw : warning? blocks p with
        | none => simp [hp, hw, ih]
        | some w => simp [hp, hw, ih, hid p w hw]
      · cases hw : warning? blocks p with
        | none => simp [hp, hw, ih]
        | some w => simp [hp, hw, ih, hid p w hw]
  rw [warningsAbout, warnings_eq_filterMap, hswap, toList_filter_key]
  cases blocks[id]? with
  | none => rfl
  | some b => cases hw : warning? blocks (id, b) <;> simp [hw]

theorem mem_warnings {blocks : Named Block} {w : Warning} (h : w ∈ warnings blocks) :
    ∃ b, blocks[w.id]? = some b ∧ b.opcode = prototypeOpcode ∧ LeftOut blocks w.id b w := by
  rw [warnings_eq_filterMap, List.mem_filterMap] at h
  obtain ⟨⟨id, b⟩, hmem, hw⟩ := h
  obtain ⟨hop, hout⟩ := warning?_eq_some hw
  have hid := hout.id_eq
  rw [Std.ExtTreeMap.mem_toList_iff_getElem?_eq_some] at hmem
  exact ⟨b, hid ▸ hmem, hop, hid.symm ▸ hout⟩

/-- Warnings come in the order of the ids. -/
theorem warnings_ordered (blocks : Named Block) :
    (warnings blocks).Pairwise fun v w => Text.bytes v.id < Text.bytes w.id := by
  rw [warnings_eq_filterMap]
  apply (toList_ordered blocks).filterMap
  intro p q hlt v hv w hw
  rw [(warning?_eq_some hv).2.id_eq, (warning?_eq_some hw).2.id_eq, Text.bytes_lt_bytes_iff]
  exact hlt

/-! ## Every prototype is accounted for -/

/-- **No prototype disappears silently.** There are as many prototypes as codes with a signature
and warnings. A prototype that provides the signature of its code has no warning; any other has
exactly one, with the first reason that applies and a text that names the prototype and that no
other reason has. No other block has a warning, and the ids of the warnings increase. -/
theorem prototypes_accounted (blocks : Named Block) :
    (blocks.toList.countP fun p => p.2.opcode == prototypeOpcode) =
      (ofNamed blocks).codes.length + (warnings blocks).length ∧
    (∀ id b, blocks[id]? = some b → b.opcode = prototypeOpcode →
      (Provides blocks id → warningsAbout blocks id = []) ∧
      (¬ Provides blocks id → ∃ w, warningsAbout blocks id = [w] ∧ LeftOut blocks id b w ∧
        (∃ lead rest, w.message = lead ++ id ++ rest) ∧
        ∀ v : Warning, v.id = id → v.message = w.message → v.SameReason w)) ∧
    (∀ w ∈ warnings blocks, ∃ b, blocks[w.id]? = some b ∧ b.opcode = prototypeOpcode) ∧
    (warnings blocks).Pairwise fun v w => Text.bytes v.id < Text.bytes w.id := by
  refine ⟨?_, ?_, ?_, warnings_ordered blocks⟩
  · have hsize := size_foldl_indexPrototype blocks.toList (∅, [])
    rw [← Std.ExtTreeMap.foldl_eq_foldl_toList] at hsize
    have hcodes : (ofNamed blocks).codes.length = (indexPrototypes blocks).1.size := by
      rw [codes, Std.ExtTreeMap.length_keys, ofNamed]
    rw [hcodes, warnings, indexPrototypes, hsize]
    simp
  · intro id b hb hop
    rw [warningsAbout_eq, hb, Option.bind_some]
    rcases provides_or_warning? hb hop with ⟨hprov, hnone⟩ | ⟨w, hout, hsome⟩
    · rw [hnone]
      exact ⟨fun _ => rfl, fun hnot => absurd hprov hnot⟩
    · rw [hsome]
      refine ⟨fun hprov => absurd hprov (not_provides_of_leftOut hb hout), fun _ => ?_⟩
      exact ⟨w, rfl, hout, hout.id_eq ▸ w.message_names_id, fun v hid =>
        Warning.sameReason_of_message_eq (hid.trans hout.id_eq.symm)⟩
  · intro w hw
    obtain ⟨b, hb, hop, _⟩ := mem_warnings hw
    exact ⟨b, hb, hop⟩

end Blocks

end BlockStage
