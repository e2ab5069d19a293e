import BlockStage.Blocks

/-!
The index of procedures, described without its two passes: the signature of a code comes from the
first well-formed prototype of the code, the definition is the first hat that holds a block with the
code. Nothing ties the two choices together. `own_signature_iff` says when they meet.
-/

namespace BlockStage

/-! ## The first value by name -/

theorem compare_eq_lt_iff (a b : String) : compare a b = .lt ↔ a < b :=
  compareOfLessAndEq_eq_lt

/-- A search through a map stops at the least name that gives a value. -/
theorem findSome?_toList_iff (m : Named α) (f : String × α → Option β) (b : β) :
    m.toList.findSome? f = some b ↔
      ∃ id a, m[id]? = some a ∧ f (id, a) = some b ∧
        ∀ id' a', m[id']? = some a' → (f (id', a')).isSome → id ≤ id' := by
  have hord : m.toList.Pairwise fun p q => p.1 < q.1 :=
    Std.ExtTreeMap.ordered_keys_toList.imp (compare_eq_lt_iff _ _).mp
  rw [List.findSome?_eq_some_iff]
  constructor
  · rintro ⟨before, ⟨id, a⟩, after, hl, hf, hbefore⟩
    refine ⟨id, a, ?_, hf, ?_⟩
    · rw [← Std.ExtTreeMap.mem_toList_iff_getElem?_eq_some, hl]
      simp
    · intro id' a' hm hf'
      rw [← Std.ExtTreeMap.mem_toList_iff_getElem?_eq_some, hl, List.mem_append,
        List.mem_cons] at hm
      rcases hm with hm | hm | hm
      · simp [hbefore _ hm] at hf'
      · cases hm
        exact String.le_refl _
      · rw [hl, List.pairwise_append, List.pairwise_cons] at hord
        exact String.not_lt.mp (String.lt_asymm (hord.2.1.1 _ hm))
  · rintro ⟨id, a, hm, hf, hleast⟩
    rw [← Std.ExtTreeMap.mem_toList_iff_getElem?_eq_some] at hm
    obtain ⟨before, after, hl⟩ := List.append_of_mem hm
    refine ⟨before, (id, a), after, hl, hf, ?_⟩
    rintro ⟨id', a'⟩ hbefore
    have hmem : m[id']? = some a' := by
      rw [← Std.ExtTreeMap.mem_toList_iff_getElem?_eq_some, hl]
      exact List.mem_append_left _ hbefore
    rw [hl, List.pairwise_append] at hord
    have hlt : id' < id := hord.2.2 _ hbefore (id, a) (by simp)
    cases hf' : f (id', a') with
    | none => rfl
    | some b' => exact absurd hlt (String.not_lt.mpr (hleast id' a' hmem (by simp [hf'])))

/-! ## Prototypes and the signatures -/

/-- Block `id` is a well-formed prototype of `code`, with the given signature. -/
def IsPrototype (blocks : Named Block) (code id : String) (signature : Signature) : Prop :=
  ∃ b m, blocks[id]? = some b ∧ b.opcode = prototypeOpcode ∧ b.mutation = some m ∧
    m.code = some code ∧ Signature.decode? m = .ok signature

/-- The prototype that counts when several carry the code. -/
def IsFirstPrototype (blocks : Named Block) (code id : String) (signature : Signature) : Prop :=
  IsPrototype blocks code id signature ∧ ∀ id' s', IsPrototype blocks code id' s' → id ≤ id'

/-- What a block adds to the signatures under `code`, as long as the code has none. -/
def signatureUnder? (code : String) (b : Block) : Option Signature :=
  if b.opcode = prototypeOpcode ∧ b.code? = some code then
    b.mutation.bind fun m => (Signature.decode? m).toOption
  else none

theorem signatureUnder?_eq_some (code : String) (b : Block) (s : Signature) :
    signatureUnder? code b = some s ↔
      ∃ m, b.opcode = prototypeOpcode ∧ b.mutation = some m ∧ m.code = some code ∧
        Signature.decode? m = .ok s := by
  cases hm : b.mutation with
  | none => simp [signatureUnder?, hm]
  | some m =>
    cases hd : Signature.decode? m with
    | error e => simp [signatureUnder?, Block.code?, hm, hd, Except.toOption]
    | ok s' => simp [signatureUnder?, Block.code?, hm, hd, Except.toOption, and_assoc]

namespace Blocks

private theorem signatures_indexPrototype (index : Named Signature × List Warning) (id : String)
    (b : Block) (code : String) :
    (indexPrototype index id b).1[code]? = index.1[code]?.or (signatureUnder? code b) := by
  by_cases hop : b.opcode = prototypeOpcode
  · cases hm : b.mutation with
    | none => simp [indexPrototype, readPrototype, signatureUnder?, hop, hm]
    | some m =>
      cases hc : m.code with
      | none => simp [indexPrototype, readPrototype, signatureUnder?, Block.code?, hop, hm, hc]
      | some c =>
        simp only [indexPrototype, readPrototype, signatureUnder?, Block.code?, hop, hm, hc,
          Signature.ofMutation, Option.bind_some, true_and, if_true, Option.some.injEq]
        by_cases hcode : c = code
        · subst hcode
          by_cases hmem : c ∈ index.1
          · simp [hmem]
          · cases hd : Signature.decode? m <;> simp [hmem, Except.toOption]
        · by_cases hmem : c ∈ index.1
          · simp [hmem, hcode]
          · cases hd : Signature.decode? m <;> simp [hmem, hcode, Std.ExtTreeMap.getElem?_insert]
  · simp [indexPrototype, signatureUnder?, hop]

/-- The fold keeps the first signature of each code. -/
theorem signatures_foldl (code : String) (l : List (String × Block))
    (index : Named Signature × List Warning) :
    (l.foldl (fun index p => indexPrototype index p.1 p.2) index).1[code]? =
      index.1[code]?.or (l.findSome? fun p => signatureUnder? code p.2) := by
  induction l generalizing index with
  | nil => simp
  | cons p l ih =>
    rw [List.foldl_cons, ih, signatures_indexPrototype, Option.or_assoc, List.findSome?_cons]
    cases signatureUnder? code p.2 <;> simp

/-- **The signature of a code** is the one of its first well-formed prototype. -/
theorem signature?_ofNamed_iff (blocks : Named Block) (code : String) (s : Signature) :
    (ofNamed blocks).signature? code = some s ↔ ∃ id, IsFirstPrototype blocks code id s := by
  have hfold : (ofNamed blocks).signature? code =
      blocks.toList.findSome? fun p => signatureUnder? code p.2 := by
    simp [signature?, ofNamed, indexPrototypes, Std.ExtTreeMap.foldl_eq_foldl_toList,
      signatures_foldl]
  rw [hfold, findSome?_toList_iff]
  simp only [Option.isSome_iff_exists, signatureUnder?_eq_some]
  constructor
  · rintro ⟨id, b, hb, ⟨m, hop, hm, hc, hd⟩, hleast⟩
    refine ⟨id, ⟨b, m, hb, hop, hm, hc, hd⟩, ?_⟩
    rintro id' s' ⟨b', m', hb', hop', hm', hc', hd'⟩
    exact hleast id' b' hb' ⟨s', m', hop', hm', hc', hd'⟩
  · rintro ⟨id, ⟨b, m, hb, hop, hm, hc, hd⟩, hleast⟩
    refine ⟨id, b, hb, ⟨m, hop, hm, hc, hd⟩, ?_⟩
    rintro id' b' hb' ⟨s', m', hop', hm', hc', hd'⟩
    exact hleast id' s' ⟨b', m', hb', hop', hm', hc', hd'⟩

end Blocks

/-! ## Hats and the definitions -/

/-- Hat `id` holds block `held`, which carries `code`. -/
def IsDefinition (blocks : Named Block) (code id held : String) : Prop :=
  ∃ hat b, blocks[id]? = some hat ∧ hat.opcode = definitionOpcode ∧
    hat.inputs["custom_block"]? = some (.block held) ∧ blocks[held]? = some b ∧
    b.code? = some code

theorem plugged?_eq_some_iff (b : Block) (input id : String) :
    b.plugged? input = some id ↔ b.inputs[input]? = some (.block id) := by
  cases h : b.inputs[input]? with
  | none => simp [Block.plugged?, h]
  | some i => cases i <;> simp [Block.plugged?, h, Input.block?]

namespace Blocks

theorem definedCode?_eq_some_iff (blocks : Named Block) (hat : Block) (code : String) :
    definedCode? blocks hat = some code ↔
      ∃ held b, hat.inputs["custom_block"]? = some (.block held) ∧ blocks[held]? = some b ∧
        b.code? = some code := by
  simp only [definedCode?, Option.bind_eq_bind, Option.bind_eq_some_iff, plugged?_eq_some_iff]
  constructor
  · rintro ⟨held, hin, b, hb, hc⟩
    exact ⟨held, b, hin, hb, hc⟩
  · rintro ⟨held, b, hin, hb, hc⟩
    exact ⟨held, hin, b, hb, hc⟩

/-- What a block adds to the definitions under `code`, as long as the code has none. -/
private def definitionUnder? (blocks : Named Block) (signatures : Named Signature) (code : String)
    (p : String × Block) : Option String :=
  if p.2.opcode = definitionOpcode ∧ definedCode? blocks p.2 = some code ∧ code ∈ signatures then
    some p.1
  else none

private theorem definitionUnder?_eq_some (blocks : Named Block) (signatures : Named Signature)
    (code id id' : String) (b : Block) :
    definitionUnder? blocks signatures code (id, b) = some id' ↔
      id = id' ∧ b.opcode = definitionOpcode ∧ definedCode? blocks b = some code ∧
        code ∈ signatures := by
  simp only [definitionUnder?, Option.ite_none_right_eq_some, Option.some.injEq]
  exact and_comm

private theorem definitions_indexDefinition (blocks : Named Block) (signatures : Named Signature)
    (definitions : Named String) (id : String) (b : Block) (code : String) :
    (indexDefinition blocks signatures definitions id b)[code]? =
      definitions[code]?.or (definitionUnder? blocks signatures code (id, b)) := by
  by_cases hop : b.opcode = definitionOpcode
  · cases hdef : definedCode? blocks b with
    | none => simp [indexDefinition, definitionUnder?, hop, hdef]
    | some c =>
      by_cases hsig : c ∈ signatures
      · by_cases hcode : c = code
        · subst hcode
          simp only [indexDefinition, definitionUnder?, hop, hdef, hsig, and_self, if_true]
          rw [Std.ExtTreeMap.getElem?_insertIfNew]
          by_cases hmem : c ∈ definitions <;> simp [hmem]
        · simp [indexDefinition, definitionUnder?, hop, hdef, hsig, hcode,
            Std.ExtTreeMap.getElem?_insertIfNew]
      · by_cases hcode : c = code
        · subst hcode
          simp [indexDefinition, definitionUnder?, hop, hdef, hsig]
        · simp [indexDefinition, definitionUnder?, hop, hdef, hsig, hcode]
  · simp [indexDefinition, definitionUnder?, hop]

/-- The fold keeps the first hat of each code. -/
private theorem definitions_foldl (blocks : Named Block) (signatures : Named Signature)
    (code : String) (l : List (String × Block)) (definitions : Named String) :
    (l.foldl (fun index p => indexDefinition blocks signatures index p.1 p.2)
        definitions)[code]? =
      definitions[code]?.or (l.findSome? (definitionUnder? blocks signatures code)) := by
  induction l generalizing definitions with
  | nil => simp
  | cons p l ih =>
    rw [List.foldl_cons, ih, definitions_indexDefinition, Option.or_assoc, List.findSome?_cons]
    cases definitionUnder? blocks signatures code p <;> simp

/-- **The definition of a code** with a signature is its first hat; without one there is none. -/
theorem definition?_ofNamed_iff (blocks : Named Block) (code id : String) :
    (ofNamed blocks).definition? code = some id ↔
      ((ofNamed blocks).signature? code).isSome ∧ (∃ held, IsDefinition blocks code id held) ∧
        ∀ id' held', IsDefinition blocks code id' held' → id ≤ id' := by
  have hfold : (ofNamed blocks).definition? code =
      blocks.toList.findSome? (definitionUnder? blocks (indexPrototypes blocks).1 code) := by
    simp [definition?, ofNamed, indexDefinitions, Std.ExtTreeMap.foldl_eq_foldl_toList,
      definitions_foldl]
  have hmem : ((ofNamed blocks).signature? code).isSome = true ↔
      code ∈ (indexPrototypes blocks).1 := Std.ExtTreeMap.mem_iff_isSome_getElem?.symm
  rw [hfold, findSome?_toList_iff, hmem]
  simp only [Option.isSome_iff_exists, definitionUnder?_eq_some, definedCode?_eq_some_iff]
  constructor
  · rintro ⟨_, hat, hhat, ⟨rfl, hop, ⟨held, b, hin, hb, hc⟩, hsig⟩, hleast⟩
    refine ⟨hsig, ⟨held, hat, b, hhat, hop, hin, hb, hc⟩, ?_⟩
    rintro id' held' ⟨hat', b', hhat', hop', hin', hb', hc'⟩
    exact hleast id' hat' hhat' ⟨id', rfl, hop', ⟨held', b', hin', hb', hc'⟩, hsig⟩
  · rintro ⟨hsig, ⟨held, hat, b, hhat, hop, hin, hb, hc⟩, hleast⟩
    refine ⟨id, hat, hhat, ⟨rfl, hop, ⟨held, b, hin, hb, hc⟩, hsig⟩, ?_⟩
    rintro id' hat' hhat' ⟨_, _, hop', ⟨held', b', hin', hb', hc'⟩, _⟩
    exact hleast id' held' ⟨hat', b', hhat', hop', hin', hb', hc'⟩

/-! ## What every index satisfies -/

theorem prototype_of_signature? {bs : Blocks} {code : String} {s : Signature}
    (h : bs.signature? code = some s) : ∃ id, IsPrototype bs.byId code id s := by
  rw [bs.eq_ofNamed, signature?_ofNamed_iff] at h
  obtain ⟨id, hid, _⟩ := h
  exact ⟨id, hid⟩

/-- Names, ids and defaults of an indexed signature stand side by side. -/
theorem aligned_of_signature? {bs : Blocks} {code : String} {s : Signature}
    (h : bs.signature? code = some s) :
    s.names.length = s.ids.length ∧ s.defaults.length = s.ids.length := by
  obtain ⟨_, _, m, _, _, _, _, hd⟩ := prototype_of_signature? h
  exact Signature.aligned_of_decode? hd

theorem signature?_isSome_of_definition? {bs : Blocks} {code id : String}
    (h : bs.definition? code = some id) : (bs.signature? code).isSome := by
  rw [bs.eq_ofNamed, definition?_ofNamed_iff] at h
  rw [bs.eq_ofNamed]
  exact h.1

theorem hat_of_definition? {bs : Blocks} {code id : String}
    (h : bs.definition? code = some id) : ∃ held, IsDefinition bs.byId code id held := by
  rw [bs.eq_ofNamed, definition?_ofNamed_iff] at h
  exact h.2.1

end Blocks

/-! ## A definition and the signature of its own prototype -/

/-- The block that hat `id` holds is a prototype, and the index has the signature of that block. -/
def HasOwnSignature (blocks : Named Block) (code id : String) : Prop :=
  ∃ hat held b m s, blocks[id]? = some hat ∧ hat.inputs["custom_block"]? = some (.block held) ∧
    blocks[held]? = some b ∧ b.opcode = prototypeOpcode ∧ b.mutation = some m ∧
    Signature.decode? m = .ok s ∧ (Blocks.ofNamed blocks).signature? code = some s

/-- **When a body runs with the signature of its own prototype.** The first hat of the code has to
hold a well-formed prototype, and one with the same signature as the first prototype of the code:
the index takes that one, whichever hat holds it. -/
theorem own_signature_iff (blocks : Named Block) (code id : String)
    (h : (Blocks.ofNamed blocks).definition? code = some id) :
    HasOwnSignature blocks code id ↔
      ∃ held first s, IsDefinition blocks code id held ∧ IsPrototype blocks code held s ∧
        IsFirstPrototype blocks code first s := by
  constructor
  · rintro ⟨hat, held, b, m, s, hhat, hin, hb, hop, hm, hd, hs⟩
    obtain ⟨_, ⟨held', hdef⟩, _⟩ := (Blocks.definition?_ofNamed_iff blocks code id).mp h
    have hheld : held' = held := by
      obtain ⟨hat', _, hhat', _, hin', _⟩ := hdef
      rw [hhat, Option.some.injEq] at hhat'
      subst hhat'
      simpa [hin] using hin'.symm
    subst hheld
    have hcode : m.code = some code := by
      obtain ⟨_, b', _, _, _, hb', hc'⟩ := hdef
      rw [hb, Option.some.injEq] at hb'
      subst hb'
      simpa [Block.code?, hm] using hc'
    obtain ⟨first, hfirst⟩ := (Blocks.signature?_ofNamed_iff blocks code s).mp hs
    exact ⟨held', first, s, hdef, ⟨b, m, hb, hop, hm, hcode, hd⟩, hfirst⟩
  · rintro ⟨held, first, s, ⟨hat, _, hhat, _, hin, _⟩, ⟨b, m, hb, hop, hm, _, hd⟩, hfirst⟩
    have hs := (Blocks.signature?_ofNamed_iff blocks code s).mpr ⟨first, hfirst⟩
    exact ⟨hat, held, b, m, s, hhat, hin, hb, hop, hm, hd, hs⟩

/-- A hat that holds block `held`. -/
def hatOf (held : String) : Block where
  opcode := definitionOpcode
  inputs := .ofList [("custom_block", Input.block held)]

/-- A prototype with one parameter. -/
def prototypeOf (code id name : String) (warp : Bool) : Block where
  opcode := prototypeOpcode
  mutation := some {
    code := some code, argumentIds := some id, argumentNames := some name
    warp := some (.bool warp) }

/-- Two prototypes of one code, each in the hat that sorts the other way. -/
def crossedHats : Named Block := .ofList [
  ("a-hat", hatOf "b-proto"), ("b-hat", hatOf "a-proto"),
  ("a-proto", prototypeOf "dup %s" "[\"a\"]" "[\"first\"]" false),
  ("b-proto", prototypeOf "dup %s" "[\"b\"]" "[\"second\"]" true)]

theorem own_signature_iff_crossedHats :
    (Blocks.ofNamed crossedHats).definition? "dup %s" = some "a-hat" ∧
      (HasOwnSignature crossedHats "dup %s" "a-hat" ↔
        ∃ held first s, IsDefinition crossedHats "dup %s" "a-hat" held ∧
          IsPrototype crossedHats "dup %s" held s ∧
          IsFirstPrototype crossedHats "dup %s" first s) :=
  ⟨by decide +kernel, own_signature_iff crossedHats "dup %s" "a-hat" (by decide +kernel)⟩

/-- The body under `a-hat` runs with the parameter of `a-proto`, which `b-hat` holds. -/
theorem crossedHats_not_own_signature :
    (Blocks.ofNamed crossedHats).definition? "dup %s" = some "a-hat" ∧
      ¬ HasOwnSignature crossedHats "dup %s" "a-hat" := by
  refine ⟨by decide +kernel, ?_⟩
  rintro ⟨hat, held, b, m, s, hhat, hin, hb, _, hm, hd, hs⟩
  have hindexed : ((Blocks.ofNamed crossedHats).signature? "dup %s").map (·.names) =
      some ["first"] := by decide +kernel
  have hheld : ((((crossedHats["a-hat"]?.bind (·.plugged? "custom_block")).bind
      (crossedHats[·]?)).bind (·.mutation)).bind fun m => (Signature.decode? m).toOption).map
        (·.names) = some ["second"] := by decide +kernel
  rw [hs] at hindexed
  rw [hhat, Option.bind_some, (plugged?_eq_some_iff hat _ held).mpr hin, Option.bind_some, hb,
    Option.bind_some, hm, Option.bind_some, hd] at hheld
  rw [show (Except.ok s : Except MutationFault Signature).toOption = some s from rfl,
    hindexed] at hheld
  exact absurd hheld (by decide)

end BlockStage
