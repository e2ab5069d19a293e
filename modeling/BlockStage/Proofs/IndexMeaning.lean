import BlockStage.Proofs.ProcedureIndex
import BlockStage.Text.Bytes

/-!
What the index of procedures means, code by code, without the passes that build it: which signature
a code has and when it has one, which definition and when, and which codes are listed. Ids are
compared by their bytes, and nothing depends on the order in which the blocks are given.
-/

namespace BlockStage

/-! ## Ids of a map -/

/-- The least id with a property, by its bytes. -/
def IsLeastId (p : String → Prop) (id : String) : Prop :=
  p id ∧ ∀ other, p other → Text.bytes id ≤ Text.bytes other

theorem isLeastId_iff (p : String → Prop) (id : String) :
    IsLeastId p id ↔ p id ∧ ∀ other, p other → id ≤ other := by
  simp only [IsLeastId, Text.bytes_le_bytes_iff]

/-- A map has few ids, so if one of them has a property, there is a least one. -/
theorem exists_isLeastId (m : Named α) (p : String → Prop) (hkey : ∀ id, p id → id ∈ m)
    (h : ∃ id, p id) : ∃ id, IsLeastId p id := by
  classical
  let holds (entry : String × α) : Option Unit := if p entry.1 then some () else none
  have hholds (id : String) (a : α) : holds (id, a) = some () ↔ p id := by simp [holds]
  obtain ⟨id, hid⟩ := h
  obtain ⟨a, ha⟩ := Option.isSome_iff_exists.mp
    (Std.ExtTreeMap.mem_iff_isSome_getElem?.mp (hkey id hid))
  have hfound : (m.toList.findSome? holds).isSome := by
    rw [List.findSome?_isSome_iff]
    exact ⟨(id, a), Std.ExtTreeMap.mem_toList_iff_getElem?_eq_some.mpr ha,
      by rw [(hholds id a).mpr hid]; rfl⟩
  obtain ⟨_, hsome⟩ := Option.isSome_iff_exists.mp hfound
  obtain ⟨least, b, _, hleast, hfirst⟩ := (findSome?_toList_iff m holds ()).mp hsome
  refine ⟨least, (isLeastId_iff p least).mpr ⟨(hholds least b).mp hleast, ?_⟩⟩
  intro other hother
  obtain ⟨c, hc⟩ := Option.isSome_iff_exists.mp
    (Std.ExtTreeMap.mem_iff_isSome_getElem?.mp (hkey other hother))
  exact hfirst other c hc (by rw [(hholds other c).mpr hother]; rfl)

/-- The entries of a map, given in any order, make up the map. -/
theorem ofList_of_perm {m : Named α} {entries : List (String × α)} (h : entries.Perm m.toList) :
    (.ofList entries : Named α) = m := by
  have hdistinct : entries.Pairwise fun p q => ¬ compare p.1 q.1 = .eq :=
    (h.pairwise_iff (fun hne heq => hne (Std.OrientedCmp.eq_symm heq))).mpr
      Std.ExtTreeMap.distinct_keys_toList
  apply Std.ExtTreeMap.ext_getElem?
  intro id
  cases hid : m[id]? with
  | some a =>
    have hmem : (id, a) ∈ entries :=
      h.mem_iff.mpr (Std.ExtTreeMap.mem_toList_iff_getElem?_eq_some.mpr hid)
    exact Std.ExtTreeMap.getElem?_ofList_of_mem (by simp) hdistinct hmem
  | none =>
    have hnot : id ∉ m.keys := by
      rw [Std.ExtTreeMap.mem_keys, Std.ExtTreeMap.mem_iff_isSome_getElem?, hid]
      exact Bool.false_ne_true
    apply Std.ExtTreeMap.getElem?_ofList_of_contains_eq_false
    rw [List.contains_eq_mem, decide_eq_false_iff_not, (h.map Prod.fst).mem_iff,
      Std.ExtTreeMap.map_fst_toList_eq_keys]
    exact hnot

/-! ## Ids of prototypes and of hats -/

theorem IsPrototype.mem {blocks : Named Block} {code id : String} {s : Signature}
    (h : IsPrototype blocks code id s) : id ∈ blocks := by
  obtain ⟨b, _, hb, _⟩ := h
  exact Std.ExtTreeMap.mem_iff_isSome_getElem?.mpr (by rw [hb]; rfl)

theorem IsDefinition.mem {blocks : Named Block} {code id held : String}
    (h : IsDefinition blocks code id held) : id ∈ blocks := by
  obtain ⟨hat, _, hhat, _⟩ := h
  exact Std.ExtTreeMap.mem_iff_isSome_getElem?.mpr (by rw [hhat]; rfl)

theorem isFirstPrototype_iff (blocks : Named Block) (code id : String) (s : Signature) :
    IsFirstPrototype blocks code id s ↔
      IsLeastId (fun id => ∃ s, IsPrototype blocks code id s) id ∧
        IsPrototype blocks code id s := by
  rw [isLeastId_iff]
  constructor
  · rintro ⟨h, hfirst⟩
    exact ⟨⟨⟨s, h⟩, fun other ⟨s', h'⟩ => hfirst other s' h'⟩, h⟩
  · rintro ⟨⟨_, hfirst⟩, h⟩
    exact ⟨h, fun other s' h' => hfirst other ⟨s', h'⟩⟩

namespace Blocks

/-! ## The index of a map of blocks -/

theorem signature?_isSome_iff (blocks : Named Block) (code : String) :
    ((ofNamed blocks).signature? code).isSome ↔ ∃ id s, IsPrototype blocks code id s := by
  rw [Option.isSome_iff_exists]
  constructor
  · rintro ⟨s, hs⟩
    obtain ⟨id, hid, _⟩ := (signature?_ofNamed_iff blocks code s).mp hs
    exact ⟨id, s, hid⟩
  · intro h
    obtain ⟨id, hleast⟩ := exists_isLeastId blocks (fun id => ∃ s, IsPrototype blocks code id s)
      (fun _ ⟨_, hs⟩ => hs.mem) h
    obtain ⟨s, hs⟩ := hleast.1
    exact ⟨s, (signature?_ofNamed_iff blocks code s).mpr
      ⟨id, (isFirstPrototype_iff blocks code id s).mpr ⟨hleast, hs⟩⟩⟩

theorem definition?_iff_isLeastId (blocks : Named Block) (code id : String) :
    (ofNamed blocks).definition? code = some id ↔
      ((ofNamed blocks).signature? code).isSome ∧
        IsLeastId (fun id => ∃ held, IsDefinition blocks code id held) id := by
  rw [definition?_ofNamed_iff, isLeastId_iff]
  constructor
  · rintro ⟨hsig, hdef, hfirst⟩
    exact ⟨hsig, hdef, fun other ⟨held, h⟩ => hfirst other held h⟩
  · rintro ⟨hsig, hdef, hfirst⟩
    exact ⟨hsig, hdef, fun other held h => hfirst other ⟨held, h⟩⟩

theorem definition?_isSome_iff (blocks : Named Block) (code : String) :
    ((ofNamed blocks).definition? code).isSome ↔
      ((ofNamed blocks).signature? code).isSome ∧ ∃ id held, IsDefinition blocks code id held := by
  rw [Option.isSome_iff_exists]
  constructor
  · rintro ⟨id, hid⟩
    obtain ⟨hsig, hdef, _⟩ := (definition?_iff_isLeastId blocks code id).mp hid
    exact ⟨hsig, id, hdef⟩
  · rintro ⟨hsig, hdef⟩
    obtain ⟨id, hleast⟩ := exists_isLeastId blocks
      (fun id => ∃ held, IsDefinition blocks code id held) (fun _ ⟨_, h⟩ => h.mem) hdef
    exact ⟨id, (definition?_iff_isLeastId blocks code id).mpr ⟨hsig, hleast⟩⟩

theorem nodup_codes (bs : Blocks) : bs.codes.Nodup := Std.ExtTreeMap.nodup_keys

theorem mem_codes_iff (bs : Blocks) (code : String) :
    code ∈ bs.codes ↔ (bs.signature? code).isSome := by
  rw [codes, Std.ExtTreeMap.mem_keys, Std.ExtTreeMap.mem_iff_isSome_getElem?, signature?]

/-- **The meaning of the index.** The signature of a code is that of the least id among its
well-formed prototypes, the definition is the least id among the hats that hold the code, and the
codes are those with a signature, once each. -/
theorem index_meaning (blocks : Named Block) (code : String) :
    (∀ s, (ofNamed blocks).signature? code = some s ↔
      ∃ id, IsLeastId (fun id => ∃ s, IsPrototype blocks code id s) id ∧
        IsPrototype blocks code id s) ∧
    (((ofNamed blocks).signature? code).isSome ↔ ∃ id s, IsPrototype blocks code id s) ∧
    (∀ id, (ofNamed blocks).definition? code = some id ↔
      ((ofNamed blocks).signature? code).isSome ∧
        IsLeastId (fun id => ∃ held, IsDefinition blocks code id held) id) ∧
    (((ofNamed blocks).definition? code).isSome ↔
      ((ofNamed blocks).signature? code).isSome ∧ ∃ id held, IsDefinition blocks code id held) ∧
    (ofNamed blocks).codes.Nodup ∧
    (code ∈ (ofNamed blocks).codes ↔ ((ofNamed blocks).signature? code).isSome) ∧
    ∀ entries : List (String × Block), entries.Perm blocks.toList →
      ofNamed (.ofList entries) = ofNamed blocks := by
  refine ⟨fun s => ?_, signature?_isSome_iff blocks code, definition?_iff_isLeastId blocks code,
    definition?_isSome_iff blocks code, nodup_codes _, mem_codes_iff _ code, fun entries h => ?_⟩
  · rw [signature?_ofNamed_iff]
    exact exists_congr fun id => isFirstPrototype_iff blocks code id s
  · rw [ofList_of_perm h]

end Blocks

end BlockStage
