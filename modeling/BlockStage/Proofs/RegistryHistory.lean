import Mathlib.Data.List.Dedup
import Mathlib.Data.List.Induction
import Mathlib.Data.List.TakeDrop
import Mathlib.Data.List.TakeWhile
import BlockStage.Package

/-!
What a registry knows of its history. Loading moves an id to the end, everything else leaves the ids
alone. An extension goes through all that happens after its loading and through no block of another.
-/

namespace BlockStage.Registry

/-! ## Project opcodes -/

theorem splitOpcode?_of_not_mem {opcode : String} (h : '_' ∉ opcode.toList) :
    splitOpcode? opcode = none := by
  have hall : ∀ c ∈ opcode.toList, (c != '_') = true := fun c hc => by
    simpa using ne_of_mem_of_not_mem hc h
  simp [splitOpcode?, List.span_eq_takeWhile_dropWhile, List.dropWhile_eq_nil_iff.mpr hall]

theorem splitOpcode?_append {id : String} (h : '_' ∉ id.toList) (block : String) :
    splitOpcode? (id ++ "_" ++ block) = some (id, block) := by
  have hall : ∀ c ∈ id.toList, (c != '_') = true := fun c hc => by
    simpa using ne_of_mem_of_not_mem hc h
  have hsplit : (id ++ "_" ++ block).toList = id.toList ++ '_' :: block.toList := by simp
  rw [splitOpcode?, hsplit, List.span_eq_takeWhile_dropWhile, List.takeWhile_append_of_pos hall,
    List.dropWhile_append_of_pos hall]
  simp

example : splitOpcode? "jwArray_flat_map" = some ("jwArray", "flat_map") := by decide

/-- Every opcode is one of the two kinds that the lemmas above are about. -/
theorem opcode_cases (opcode : String) :
    '_' ∉ opcode.toList ∨ ∃ id block, '_' ∉ id.toList ∧ opcode = id ++ "_" ++ block := by
  by_cases h : '_' ∈ opcode.toList
  · obtain ⟨id, block, hopcode, hid⟩ := List.eq_append_cons_of_mem h
    refine .inr ⟨String.ofList id, String.ofList block, by simpa using hid, ?_⟩
    apply String.toList_inj.mp
    simp [hopcode]
  · exact .inl h

/-! ## The blocks of an extension -/

variable {ε : Type} {r : Registry ε} {id k opcode block : String} {args : Arguments} {s : Scene}
  {e e' : ε}

theorem lookup_cons (id k : String) (e : ε) (entries : List (String × ε)) :
    ((id, e) :: entries).lookup k = if k = id then some e else entries.lookup k := by
  by_cases h : k = id
  · simp [h]
  · simp [List.lookup_cons, beq_false_of_ne h, h]

theorem lookup_filter_of_ne (h : k ≠ id) (entries : List (String × ε)) :
    (entries.filter (·.1 != id)).lookup k = entries.lookup k := by
  induction entries with
  | nil => rfl
  | cons entry entries ih =>
    obtain ⟨other, e⟩ := entry
    by_cases hother : other = id
    · subst hother
      simp [lookup_cons, h, ih]
    · simp [lookup_cons, hother, ih]

theorem mem_ids_iff : id ∈ r.ids ↔ ∃ e, r.find? id = some e := by
  rw [← Option.isSome_iff_exists, ← Option.ne_none_iff_isSome, ids, find?, Ne,
    List.lookup_eq_none_iff]
  simp

theorem find?_eq_none_iff : r.find? id = none ↔ id ∉ r.ids := by
  rw [mem_ids_iff, ← Option.isSome_iff_exists, Option.not_isSome_iff_eq_none]

theorem replace_of_append {above below : List (String × ε)} (h : ∀ entry ∈ above, id ≠ entry.1) :
    (Registry.mk (above ++ (id, e) :: below)).replace id e' = ⟨above ++ (id, e') :: below⟩ := by
  induction above with
  | nil => simp [replace, List.findIdx_cons]
  | cons entry above ih =>
    have hentry : (entry.1 == id) = false := by simpa using (h entry (by simp)).symm
    have ih := ih fun other hother => h other (by simp [hother])
    simp only [replace, Registry.mk.injEq] at ih
    simp [replace, List.findIdx_cons, hentry, ih]

/-- The first entry under an id, and what a new state in its place makes of the registry. -/
theorem exists_append_of_find? (h : r.find? id = some e) :
    ∃ above below, r = ⟨above ++ (id, e) :: below⟩ ∧ above.lookup id = none ∧
      ∀ e', r.replace id e' = ⟨above ++ (id, e') :: below⟩ := by
  obtain ⟨above, below, hloaded, habove⟩ := List.lookup_eq_some_iff.mp h
  have hr : r = ⟨above ++ (id, e) :: below⟩ := by rw [← hloaded]
  refine ⟨above, below, hr, List.lookup_eq_none_iff.mpr habove, fun e' => ?_⟩
  rw [hr]
  exact replace_of_append fun entry hentry => by simpa using habove entry hentry

theorem replace_of_find? (h : r.find? id = some e) : r.replace id e = r := by
  obtain ⟨above, below, hr, -, hreplace⟩ := exists_append_of_find? h
  rw [hreplace, ← hr]

variable [Extension ε]

theorem execute_of_find? (h : r.find? id = some e) :
    r.execute id opcode args s = (Extension.execute opcode args e s).map (r.replace id) := by
  rw [execute, h]

theorem execute_of_find?_eq_none (h : r.find? id = none) :
    r.execute id opcode args s = ⟨.error (.unknownOpcode id opcode), r, s⟩ := by
  rw [execute, h]

/-- Under the id answers `e`: a block has the answer that it has in `e`, and leaves the scene that it
leaves there. What comes of `e` takes its place, and all other extensions stay as and where they
were. -/
def Answers (r : Registry ε) (id : String) (e : ε) : Prop :=
  ∃ above below, r.loaded = above ++ (id, e) :: below ∧ ∀ opcode args s,
    (r.execute id opcode args s).answer = (Extension.execute opcode args e s).answer ∧
    (r.execute id opcode args s).scene = (Extension.execute opcode args e s).scene ∧
    (r.execute id opcode args s).extension.loaded =
      above ++ (id, (Extension.execute opcode args e s).extension) :: below

theorem answers_of_find? (h : r.find? id = some e) : r.Answers id e := by
  obtain ⟨above, below, hr, -, hreplace⟩ := exists_append_of_find? h
  refine ⟨above, below, by rw [hr], fun opcode args s => ?_⟩
  rw [execute_of_find? h]
  exact ⟨rfl, rfl, congrArg loaded (hreplace _)⟩

theorem executeBlock_append (h : '_' ∉ id.toList) :
    r.executeBlock (id ++ "_" ++ block) args s = r.execute id block args s := by
  rw [executeBlock, splitOpcode?_append h]

theorem executeBlock_of_not_mem (h : '_' ∉ opcode.toList) :
    r.executeBlock opcode args s = ⟨.error (.unknownOpcode "" opcode), r, s⟩ := by
  rw [executeBlock, splitOpcode?_of_not_mem h]

/-! ## Histories -/

/-- What happens to a registry. Each block runs on a scene of its own. -/
inductive Event (ε : Type) where
  | load (e : ε)
  | start
  | block (id opcode : String) (args : Arguments) (s : Scene)
  | projectBlock (opcode : String) (args : Arguments) (s : Scene)

/-- A registry after one more event. -/
def react (r : Registry ε) : Event ε → Registry ε
  | .load e => r.load e
  | .start => r.restart
  | .block id opcode args s => (r.execute id opcode args s).extension
  | .projectBlock opcode args s => (r.executeBlock opcode args s).extension

/-- The registry that was empty before its history. -/
def after (history : List (Event ε)) : Registry ε := history.foldl react {}

def Event.loadedId? : Event ε → Option String
  | .load e => some (Extension.info e).id
  | _ => none

/-- The ids of all loadings, in their order. -/
def loadedIds (history : List (Event ε)) : List String := history.filterMap Event.loadedId?

/-- A block of `addressee` leaves alone what is loaded under another id. -/
def runAs (addressee opcode : String) (args : Arguments) (s : Scene) (id : String) (e : ε) : ε :=
  if addressee = id then (Extension.execute opcode args e s).extension else e

/-- What an event makes of the extension that is loaded under an id. -/
def undergo (id : String) (e : ε) : Event ε → ε
  | .load _ => e
  | .start => Extension.restart e
  | .block addressee opcode args s => runAs addressee opcode args s id e
  | .projectBlock opcode args s =>
    match splitOpcode? opcode with
    | none => e
    | some (addressee, block) => runAs addressee block args s id e

variable {event : Event ε} {history later : List (Event ε)}

theorem after_concat : after (history ++ [event]) = (after history).react event := by
  simp [after]

theorem exists_load (h : event.loadedId? = some id) :
    ∃ e, event = .load e ∧ (Extension.info e).id = id := by
  cases event with
  | load e => exact ⟨e, rfl, Option.some.inj h⟩
  | start => cases h
  | block addressee opcode args s => cases h
  | projectBlock opcode args s => cases h

theorem mem_loadedIds_cons :
    id ∈ loadedIds (event :: history) ↔ event.loadedId? = some id ∨ id ∈ loadedIds history := by
  simp [loadedIds, List.mem_filterMap]

/-! ## Ids -/

theorem ids_load : (r.load e).ids =
    r.ids.filter (· != (Extension.info e).id) ++ [(Extension.info e).id] := by
  simp [load, ids, List.filter_map, Function.comp_def]

theorem ids_restart : r.restart.ids = r.ids := by
  simp [restart, ids]

theorem ids_execute : (r.execute id opcode args s).extension.ids = r.ids := by
  cases h : r.find? id with
  | none => rw [execute_of_find?_eq_none h]
  | some e =>
    obtain ⟨above, below, hr, -, hreplace⟩ := exists_append_of_find? h
    rw [execute_of_find? h, Reply.map, hreplace, hr]
    simp [ids]

theorem ids_executeBlock : (r.executeBlock opcode args s).extension.ids = r.ids := by
  unfold executeBlock
  split
  · exact ids_execute
  · rfl

theorem dedup_concat (ids : List String) (id : String) :
    (ids ++ [id]).dedup = ids.dedup.filter (· != id) ++ [id] := by
  induction ids with
  | nil => rfl
  | cons first rest ih =>
    by_cases hrest : first ∈ rest
    · rw [List.cons_append, List.dedup_cons_of_mem (by simp [hrest]), ih,
        List.dedup_cons_of_mem hrest]
    · rw [List.cons_append, List.dedup_cons_of_notMem hrest]
      by_cases hid : first = id
      · simp [hid, ih]
      · rw [List.dedup_cons_of_notMem (by simp [hrest, hid]), ih]
        simp [hid]

theorem ids_react (h : event.loadedId? = none) : (r.react event).ids = r.ids := by
  cases event with
  | load e => cases h
  | start => exact ids_restart
  | block id opcode args s => exact ids_execute
  | projectBlock opcode args s => exact ids_executeBlock

/-- The last loading of an id decides its place. -/
theorem ids_after (history : List (Event ε)) :
    (after history).ids = (loadedIds history).dedup := by
  induction history using List.reverseRecOn with
  | nil => rfl
  | append_singleton history event ih =>
    have happend :
        loadedIds (history ++ [event]) = loadedIds history ++ event.loadedId?.toList := by
      cases h : event.loadedId? <;> simp [loadedIds, h]
    rw [after_concat, happend]
    cases h : event.loadedId? with
    | none => rw [ids_react h, ih, Option.toList_none, List.append_nil]
    | some id =>
      obtain ⟨e, rfl, rfl⟩ := exists_load h
      rw [react, ids_load, ih, Option.toList_some, dedup_concat]

/-! ## States -/

theorem find?_load_self : (r.load e).find? (Extension.info e).id = some e := by
  have hgone : (r.loaded.filter (·.1 != (Extension.info e).id)).lookup (Extension.info e).id =
      none := by
    rw [List.lookup_eq_none_iff]
    intro entry hentry
    simpa [bne_comm] using (List.mem_filter.mp hentry).2
  simp [load, find?, List.lookup_append, hgone]

theorem find?_load_of_ne (h : k ≠ (Extension.info e).id) : (r.load e).find? k = r.find? k := by
  simp [load, find?, List.lookup_append, lookup_filter_of_ne h, lookup_cons, h]

theorem find?_restart : r.restart.find? k = (r.find? k).map Extension.restart := by
  obtain ⟨entries⟩ := r
  simp only [restart, find?]
  induction entries with
  | nil => rfl
  | cons entry entries ih =>
    rw [List.map_cons, lookup_cons, lookup_cons, ih]
    split <;> rfl

theorem find?_execute : (r.execute id opcode args s).extension.find? k =
    (r.find? k).map (runAs id opcode args s k) := by
  by_cases hk : id = k
  · subst hk
    cases h : r.find? id with
    | none => rw [execute_of_find?_eq_none h, h, Option.map_none]
    | some e =>
      obtain ⟨above, below, hr, habove, hreplace⟩ := exists_append_of_find? h
      rw [execute_of_find? h, Reply.map, hreplace]
      simp [find?, List.lookup_append, habove, runAs]
  · have hother : runAs id opcode args s k = (fun e : ε => e) := by
      funext e
      rw [runAs, if_neg hk]
    rw [hother, Option.map_id']
    cases h : r.find? id with
    | none => rw [execute_of_find?_eq_none h]
    | some e =>
      obtain ⟨above, below, hr, -, hreplace⟩ := exists_append_of_find? h
      rw [execute_of_find? h, Reply.map, hreplace, hr]
      simp [find?, List.lookup_append, lookup_cons, Ne.symm hk]

theorem find?_executeBlock : (r.executeBlock opcode args s).extension.find? id =
    (r.find? id).map fun e => undergo id e (.projectBlock opcode args s) := by
  cases h : splitOpcode? opcode with
  | none => simp [executeBlock, undergo, h]
  | some split => simpa [executeBlock, undergo, h] using find?_execute

theorem find?_react (h : event.loadedId? ≠ some id) :
    (r.react event).find? id = (r.find? id).map (undergo id · event) := by
  cases event with
  | load e =>
    have hid : id ≠ (Extension.info e).id := fun hid => h (by rw [hid, Event.loadedId?])
    simp [react, undergo, find?_load_of_ne hid]
  | start => exact find?_restart
  | block addressee opcode args s => exact find?_execute
  | projectBlock opcode args s => exact find?_executeBlock

theorem find?_foldl_react (h : id ∉ loadedIds later) :
    (later.foldl react r).find? id = (r.find? id).map fun e => later.foldl (undergo id) e := by
  induction later generalizing r with
  | nil => simp
  | cons event later ih =>
    obtain ⟨hevent, hlater⟩ := not_or.mp (mem_loadedIds_cons.not.mp h)
    rw [List.foldl_cons, ih hlater, find?_react hevent, Option.map_map]
    rfl

theorem exists_last_load (h : id ∈ loadedIds history) :
    ∃ before e later, history = before ++ .load e :: later ∧ (Extension.info e).id = id ∧
      id ∉ loadedIds later := by
  induction history with
  | nil => cases h
  | cons event history ih =>
    by_cases hid : id ∈ loadedIds history
    · obtain ⟨before, e, later, rfl, he, hlater⟩ := ih hid
      exact ⟨event :: before, e, later, rfl, he, hlater⟩
    · obtain ⟨e, rfl, he⟩ := exists_load ((mem_loadedIds_cons.mp h).resolve_right hid)
      exact ⟨[], e, history, rfl, he, hid⟩

/-- What was loaded last under an id is still there, with all that happened since. -/
theorem find?_after {before : List (Event ε)} (he : (Extension.info e).id = id)
    (h : id ∉ loadedIds later) :
    (after (before ++ .load e :: later)).find? id = some (later.foldl (undergo id) e) := by
  subst he
  rw [after, List.foldl_append, List.foldl_cons, find?_foldl_react h, react, find?_load_self]
  rfl

/-- What a registry shows of its history. -/
structure Reflects (r : Registry ε) (history : List (Event ε)) : Prop where
  distinct : r.ids.Nodup
  /-- Of equal ids `dedup` keeps the last. -/
  order : r.ids = (loadedIds history).dedup
  latest : ∀ id ∈ r.ids, ∃ before e later, history = before ++ .load e :: later ∧
    (Extension.info e).id = id ∧ id ∉ loadedIds later ∧
    r.Answers id (later.foldl (undergo id) e)
  routed : ∀ id block args s, '_' ∉ id.toList →
    r.executeBlock (id ++ "_" ++ block) args s = r.execute id block args s

/-- **An id stands where it was last loaded, and what was loaded there answers for it.** -/
theorem after_reflects (history : List (Event ε)) : (after history).Reflects history where
  distinct := by
    rw [ids_after]
    exact List.nodup_dedup _
  order := ids_after history
  latest := fun id hid => by
    rw [ids_after, List.mem_dedup] at hid
    obtain ⟨before, e, later, rfl, he, hlater⟩ := exists_last_load hid
    exact ⟨before, e, later, rfl, he, hlater, answers_of_find? (find?_after he hlater)⟩
  routed := fun id block args s hid => executeBlock_append hid

theorem between_eq_nil {between : List (Event ε)}
    (h : event :: later = between ++ .load e :: history) (he : (Extension.info e).id = id)
    (hlater : id ∉ loadedIds later) : between = [] := by
  cases between with
  | nil => rfl
  | cons first between =>
    obtain ⟨-, rfl⟩ := List.cons.inj h
    exact absurd (by simp [loadedIds, Event.loadedId?, he]) hlater

/-- A history has one last loading of an id. -/
theorem last_load_unique {before before' later' : List (Event ε)}
    (h : before ++ .load e :: later = before' ++ .load e' :: later')
    (he : (Extension.info e).id = id) (he' : (Extension.info e').id = id)
    (hlater : id ∉ loadedIds later) (hlater' : id ∉ loadedIds later') :
    e = e' ∧ later = later' := by
  obtain ⟨between, -, hbetween⟩ | ⟨between, -, hbetween⟩ := List.append_eq_append_iff.mp h
  · obtain rfl := between_eq_nil hbetween he' hlater
    simpa using hbetween
  · obtain rfl := between_eq_nil hbetween he hlater'
    simpa [eq_comm] using hbetween

/-- The physics gets a gravity, then the arrays are loaded anew. -/
def reloaded : List (Event Package) :=
  let args : Arguments := { values := .ofList [("VECTOR", Value.vector ⟨1, 2⟩)] }
  let scene : Scene := ⟨{ targets := [] }, .start "Cat" none .interpreted⟩
  [.load (.arrays .ready), .load (.physics {}),
    .projectBlock "jwPsychic_setGravity" args scene, .load (.arrays .ready)]

/-- The arrays stand last and answer, and the physics still has its gravity. -/
theorem after_reflects_reloaded :
    (after reloaded).ids = ["jwPsychic", "jwArray"] ∧
    ∀ args s,
      ((after reloaded).executeBlock "jwPsychic_getGravity" args s).answer =
        .ok (some (.vector ⟨1, 2⟩)) ∧
      ((after reloaded).executeBlock "jwArray_blank" args s).answer = .ok (some (.array [])) := by
  have hreflects := after_reflects reloaded
  have hids : (after reloaded).ids = ["jwPsychic", "jwArray"] := by
    rw [hreflects.order]
    decide
  refine ⟨hids, fun args s => ⟨?_, ?_⟩⟩
  · obtain ⟨before, e, later, hhistory, hid, hlater, above, below, -, hanswers⟩ :=
      hreflects.latest "jwPsychic" (by simp [hids])
    have hlast :
        reloaded = [.load (.arrays .ready)] ++ .load (.physics {}) :: reloaded.drop 2 := rfl
    obtain ⟨rfl, rfl⟩ := last_load_unique (hhistory.symm.trans hlast) hid rfl hlater (by decide)
    have hrouted := hreflects.routed "jwPsychic" "getGravity" args s (by decide)
    exact (congrArg Reply.answer hrouted).trans (hanswers "getGravity" args s).1
  · obtain ⟨before, e, later, hhistory, hid, hlater, above, below, -, hanswers⟩ :=
      hreflects.latest "jwArray" (by simp [hids])
    have hlast : reloaded = reloaded.take 3 ++ .load (.arrays .ready) :: [] := rfl
    obtain ⟨rfl, rfl⟩ := last_load_unique (hhistory.symm.trans hlast) hid rfl hlater (by decide)
    have hrouted := hreflects.routed "jwArray" "blank" args s (by decide)
    exact (congrArg Reply.answer hrouted).trans (hanswers "blank" args s).1

end BlockStage.Registry
