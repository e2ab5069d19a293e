import BlockStage.Package
import BlockStage.Proofs.RegistryHistory

/-!
When a block fails. There is no reason beside an opcode that leads nowhere and a body of a shape
that is not offered, and a block that fails has not changed anything.
-/

namespace BlockStage

/-! ## Palettes -/

def PaletteItem.opcode? : PaletteItem → Option String
  | block info => some info.opcode
  | separator => none

/-- The opcodes of the blocks that the editor is told of. -/
def ExtensionInfo.opcodes (info : ExtensionInfo) : List String :=
  info.palette.filterMap PaletteItem.opcode?

namespace Arrays

theorem opcodes_info : info.opcodes = ["blank", "test"] := rfl

theorem array?_eq_none_iff {opcode : String} : array? opcode = none ↔ opcode ∉ info.opcodes := by
  rw [opcodes_info]
  unfold array?
  split <;> simp_all

end Arrays

namespace Physics

theorem opcodes_info : info.opcodes = Opcode.all.map Opcode.name := rfl

namespace Opcode

theorem mem_all (opcode : Opcode) : opcode ∈ all := by
  cases opcode <;> decide

theorem name_mem_opcodes (opcode : Opcode) : opcode.name ∈ info.opcodes := by
  rw [opcodes_info]
  exact List.mem_map_of_mem opcode.mem_all

theorem not_mem_opcodes {name : String} (h : ofName? name = none) : name ∉ info.opcodes := by
  rw [opcodes_info, List.mem_map]
  rintro ⟨opcode, hmem, rfl⟩
  simpa using List.find?_eq_none.mp h opcode hmem

theorem name_eq_enable {opcode : Opcode} : opcode.name = "enablePhysics" ↔ opcode = enable := by
  cases opcode <;> decide

end Opcode

end Physics

/-! ## Replies -/

/-- A block fails exactly if it is refused, and then extension and scene are what they were. -/
structure Reply.Guarded {ε : Type} (reply : Reply ε) (e : ε) (s : Scene) (refused : Prop) :
    Prop where
  fails_iff : (∃ error, reply.answer = .error error) ↔ refused
  untouched : ∀ error, reply.answer = .error error → reply.extension = e ∧ reply.scene = s

namespace Reply.Guarded

variable {ε δ : Type} {reply : Reply ε} {e : ε} {s : Scene} {refused refused' : Prop}

theorem of_ok {value : Option Value} (hanswer : reply.answer = .ok value) (h : ¬ refused) :
    reply.Guarded e s refused where
  fails_iff := by simp [hanswer, h]
  untouched := by simp [hanswer]

theorem of_error (error : ExtensionError) (h : refused) :
    (Reply.mk (.error error) e s).Guarded e s refused where
  fails_iff := by simp [h]
  untouched := fun _ _ => ⟨rfl, rfl⟩

theorem map (h : reply.Guarded e s refused) (f : ε → δ) :
    (reply.map f).Guarded (f e) s refused where
  fails_iff := h.fails_iff
  untouched := fun error herror => by
    obtain ⟨hextension, hscene⟩ := h.untouched error herror
    exact ⟨congrArg f hextension, hscene⟩

theorem of_iff (h : reply.Guarded e s refused) (hiff : refused ↔ refused') :
    reply.Guarded e s refused' where
  fails_iff := h.fails_iff.trans hiff
  untouched := h.untouched

end Reply.Guarded

/-! ## The packages -/

variable {args : Arguments} {s : Scene} {opcode id block : String}

theorem Arrays.execute_guarded (state : Arrays) :
    (Extension.execute opcode args state s).Guarded state s (opcode ∉ info.opcodes) := by
  simp only [Extension.execute]
  cases h : array? opcode with
  | none => exact .of_error _ (array?_eq_none_iff.mp h)
  | some items =>
    refine .of_ok rfl fun hmem => ?_
    rw [array?_eq_none_iff.mpr hmem] at h
    cases h

namespace Physics

/-- A body is asked for, but its shape is none that bodies have. -/
def Shapeless (args : Arguments) (s : Scene) : Prop :=
  (∃ target, s.target? = some target) ∧ optionOf args ≠ "box" ∧ optionOf args ≠ "circle"

theorem shapeFor_cases (option : String) (size : Vec Float) :
    (∃ shape, shapeFor option size = .ok shape ∧ (option = "box" ∨ option = "circle")) ∨
      ∃ reason, shapeFor option size = .error reason ∧ option ≠ "box" ∧ option ≠ "circle" := by
  unfold shapeFor
  split
  · next h => exact .inl ⟨_, rfl, .inl h⟩
  · next hbox =>
    split
    · next h => exact .inl ⟨_, rfl, .inr h⟩
    · next hcircle =>
      split
      · exact .inr ⟨_, rfl, hbox, hcircle⟩
      · exact .inr ⟨_, rfl, hbox, hcircle⟩

/-- The target is looked for before the option is. -/
theorem enable_guarded (w : World) : (enable args w s).Guarded w s (Shapeless args s) := by
  unfold enable Shapeless
  cases s.target? with
  | none => exact .of_ok rfl (by simp)
  | some target =>
    obtain ⟨shape, hshape, hoption⟩ | ⟨reason, hreason, hbox, hcircle⟩ :=
      shapeFor_cases (optionOf args) target.scaledSize
    · simp only [hshape]
      exact .of_ok rfl fun ⟨_, hbox, hcircle⟩ => hoption.elim hbox hcircle
    · simp only [hreason]
      exact .of_error _ ⟨⟨target, rfl⟩, hbox, hcircle⟩

theorem run_guarded (opcode : Opcode) (w : World) :
    (run opcode args w s).Guarded w s (opcode = .enable ∧ Shapeless args s) := by
  cases opcode with
  | enable => exact (enable_guarded w).of_iff (by simp)
  | _ => exact .of_ok rfl (by simp)

theorem execute_guarded (w : World) : (Extension.execute opcode args w s).Guarded w s
    (opcode ∉ info.opcodes ∨ opcode = "enablePhysics" ∧ Shapeless args s) := by
  simp only [Extension.execute]
  cases h : Opcode.ofName? opcode with
  | none => exact .of_error _ (.inl (Opcode.not_mem_opcodes h))
  | some known =>
    refine (run_guarded known w).of_iff ?_
    rw [← Opcode.name_of_ofName? h]
    simp [Opcode.name_mem_opcodes, Opcode.name_eq_enable]

end Physics

namespace Package

theorem execute_guarded (e : Package) : (Extension.execute opcode args e s).Guarded e s
    (opcode ∉ (Extension.info e).opcodes ∨
      (Extension.info e).id = Physics.id ∧ opcode = "enablePhysics" ∧
        Physics.Shapeless args s) := by
  cases e with
  | arrays state =>
    have hid : (Extension.info (arrays state)).id ≠ Physics.id := show Arrays.id ≠ _ by decide
    refine ((Arrays.execute_guarded state).map arrays).of_iff ?_
    simp only [hid, false_and, or_false]
    rfl
  | physics world =>
    have hid : (Extension.info (physics world)).id = Physics.id := rfl
    refine ((Physics.execute_guarded world).map physics).of_iff ?_
    simp only [hid, true_and]
    rfl

theorem info_execute (e : Package) :
    Extension.info (Extension.execute opcode args e s).extension = Extension.info e := by
  cases e <;> rfl

theorem info_restart (e : Package) : Extension.info (Extension.restart e) = Extension.info e := by
  cases e <;> rfl

theorem info_runAs (addressee : String) (e : Package) :
    Extension.info (Registry.runAs addressee opcode args s id e) = Extension.info e := by
  unfold Registry.runAs
  split
  · exact info_execute e
  · rfl

theorem info_undergo (e : Package) (event : Registry.Event Package) :
    Extension.info (Registry.undergo id e event) = Extension.info e := by
  cases event with
  | load loaded => rfl
  | start => exact info_restart e
  | block addressee opcode args s => exact info_runAs addressee e
  | projectBlock opcode args s =>
    simp only [Registry.undergo]
    split
    · rfl
    · exact info_runAs _ e

theorem info_foldl_undergo (later : List (Registry.Event Package)) (e : Package) :
    Extension.info (later.foldl (Registry.undergo id) e) = Extension.info e := by
  induction later generalizing e with
  | nil => rfl
  | cons event later ih => rw [List.foldl_cons, ih, info_undergo]

end Package

/-! ## The registry -/

namespace Registry

/-- Every package is loaded under its own id. -/
theorem id_of_find?_after {history : List (Event Package)} {e : Package}
    (h : (after history).find? id = some e) : (Extension.info e).id = id := by
  have hid : id ∈ (after history).ids := mem_ids_iff.mpr ⟨e, h⟩
  rw [ids_after, List.mem_dedup] at hid
  obtain ⟨before, loaded, later, rfl, hloaded, hlater⟩ := exists_last_load hid
  rw [find?_after hloaded hlater, Option.some.injEq] at h
  rw [← h, Package.info_foldl_undergo, hloaded]

/-- The project opcodes that fail. -/
inductive Rejected (r : Registry Package) (args : Arguments) (s : Scene) : String → Prop
  | plain {opcode : String} (h : '_' ∉ opcode.toList) : Rejected r args s opcode
  | notLoaded {id block : String} (hid : '_' ∉ id.toList) (h : id ∉ r.ids) :
    Rejected r args s (id ++ "_" ++ block)
  | noBlock {id block : String} {e : Package} (hid : '_' ∉ id.toList) (he : r.find? id = some e)
    (h : block ∉ (Extension.info e).opcodes) : Rejected r args s (id ++ "_" ++ block)
  | noShape {target : Target} (hid : Physics.id ∈ r.ids) (htarget : s.target? = some target)
    (hbox : Physics.optionOf args ≠ "box") (hcircle : Physics.optionOf args ≠ "circle") :
    Rejected r args s (Physics.id ++ "_" ++ "enablePhysics")

variable {r : Registry Package} {e : Package}

theorem id_and_block_eq {id' block' : String} (hid : '_' ∉ id.toList) (hid' : '_' ∉ id'.toList)
    (h : id ++ "_" ++ block = id' ++ "_" ++ block') : id = id' ∧ block = block' := by
  have hsplit := splitOpcode?_append hid block
  rw [h, splitOpcode?_append hid' block'] at hsplit
  simpa [eq_comm] using hsplit

theorem rejected_iff_of_find? (hid : '_' ∉ id.toList) (he : r.find? id = some e)
    (hown : (Extension.info e).id = id) :
    (block ∉ (Extension.info e).opcodes ∨
      (Extension.info e).id = Physics.id ∧ block = "enablePhysics" ∧ Physics.Shapeless args s) ↔
      Rejected r args s (id ++ "_" ++ block) := by
  have hloaded : id ∈ r.ids := mem_ids_iff.mpr ⟨e, he⟩
  constructor
  · rintro (h | ⟨hphysics, rfl, ⟨target, htarget⟩, hbox, hcircle⟩)
    · exact .noBlock hid he h
    · obtain rfl : id = Physics.id := hown.symm.trans hphysics
      exact .noShape hloaded htarget hbox hcircle
  · intro h
    generalize hopcode : id ++ "_" ++ block = opcode at h
    cases h with
    | plain h =>
      subst hopcode
      simp at h
    | notLoaded hid' h =>
      obtain ⟨rfl, rfl⟩ := id_and_block_eq hid hid' hopcode
      exact absurd hloaded h
    | noBlock hid' he' h =>
      obtain ⟨rfl, rfl⟩ := id_and_block_eq hid hid' hopcode
      obtain rfl := Option.some.inj (he.symm.trans he')
      exact .inl h
    | noShape _ htarget hbox hcircle =>
      obtain ⟨rfl, rfl⟩ := id_and_block_eq hid (by decide) hopcode
      exact .inr ⟨hown, rfl, ⟨_, htarget⟩, hbox, hcircle⟩

/-- **When a block fails.** It fails exactly if its opcode leads nowhere, or if it asks for a body
of a shape that is not offered; and a block that fails has not changed anything. -/
theorem executeBlock_guarded (history : List (Event Package)) (opcode : String) (args : Arguments)
    (s : Scene) : ((after history).executeBlock opcode args s).Guarded (after history) s
      (Rejected (after history) args s opcode) := by
  obtain h | ⟨id, block, hid, rfl⟩ := opcode_cases opcode
  · rw [executeBlock_of_not_mem h]
    exact .of_error _ (.plain h)
  · rw [executeBlock_append hid]
    cases he : (after history).find? id with
    | none =>
      rw [execute_of_find?_eq_none he]
      exact .of_error _ (.notLoaded hid (find?_eq_none_iff.mp he))
    | some e =>
      rw [execute_of_find? he]
      have hblock : (Extension.execute block args e s).Guarded e s _ := e.execute_guarded
      have hreply := hblock.map ((after history).replace id)
      rw [replace_of_find? he] at hreply
      exact hreply.of_iff (rejected_iff_of_find? hid he (id_of_find?_after he))

end Registry

end BlockStage
