import BlockStage.Project.Load
import BlockStage.Proofs.JsonReadBack
import BlockStage.Scene

/-!
What an id stands for. Targets are kept in load order, and of several with one id the last one is
found. The loader takes any ids, also one target's name for another's id, so an earlier target can
be out of reach, and its scripts then run against another one.
-/

namespace BlockStage

/-! ## The last element that satisfies a predicate -/

variable {α : Type} {p : α → Bool} {before after : List α} {a : α}

theorem find?_reverse_of_last (ha : p a = true) (hafter : ∀ b ∈ after, p b = false) :
    (before ++ a :: after).reverse.find? p = some a := by
  have hnone : after.reverse.find? p = none := by
    rw [List.find?_eq_none]
    intro b hb
    simp [hafter b (List.mem_reverse.mp hb)]
  simp [List.find?_append, hnone, ha]

/-- If an element of the second part satisfies the predicate, the first part stays. -/
theorem modifyLast_append (f : α → α) (h : after.any p = true) :
    modifyLast p f (before ++ after) = before ++ modifyLast p f after := by
  induction before with
  | nil => rfl
  | cons b before ih =>
    have hany : (before ++ after).any p = true := by rw [List.any_append, h, Bool.or_true]
    rw [List.cons_append, modifyLast, if_pos hany, ih, List.cons_append]

theorem modifyLast_of_last (f : α → α) (ha : p a = true) (hafter : ∀ b ∈ after, p b = false) :
    modifyLast p f (before ++ a :: after) = before ++ f a :: after := by
  have hnone : after.any p = false := by simpa using hafter
  rw [modifyLast_append f (by simp [ha])]
  simp [modifyLast, hnone, ha]

theorem modify_length_cons (f : α → α) :
    (before ++ a :: after).modify before.length f = before ++ f a :: after := by
  induction before with
  | nil => rfl
  | cons b before ih => simp [ih]

theorem exists_split_of_getElem? {l : List α} {i : Nat} (h : l[i]? = some a) :
    ∃ before after, l = before ++ a :: after ∧ before.length = i := by
  obtain ⟨hlt, hget⟩ := List.getElem?_eq_some_iff.mp h
  refine ⟨l.take i, l.drop (i + 1), ?_, List.length_take_of_le (Nat.le_of_lt hlt)⟩
  rw [← hget, List.getElem_cons_drop, List.take_append_drop]

/-! ## What an id stands for -/

namespace Project

theorem mem_of_target? {p : Project} {id : String} {t : Target} (h : p.target? id = some t) :
    t ∈ p.targets :=
  List.mem_reverse.mp (List.mem_of_find?_eq_some h)

/-- Under an id, a project finds target `t` and changes just entry `i`. -/
structure Finds (p : Project) (id : String) (i : Nat) (t : Target) : Prop where
  read : p.target? id = some t
  write (f : TargetState → TargetState) :
    (p.modifyState id f).targets = p.targets.modify i fun t => { t with state := f t.state }

/-- A thread reads the blocks of target `t` and changes the state of entry `i`. -/
structure RunsOn (p : Project) (thread : Thread) (i : Nat) (t : Target) : Prop where
  target : (Scene.mk p thread).target? = some t
  block (id : String) : (Scene.mk p thread).block? id = t.blocks.block? id
  write (f : TargetState → TargetState) :
    ((Scene.mk p thread).modifyTarget f).project.targets =
      p.targets.modify i fun t => { t with state := f t.state }

theorem finds_of_last {p : Project} {before after : List Target} {t : Target}
    (hsplit : p.targets = before ++ t :: after) (hafter : ∀ u ∈ after, u.id ≠ t.id) :
    p.Finds t.id before.length t where
  read := by
    rw [target?, hsplit]
    exact find?_reverse_of_last (by simp) (by simpa using hafter)
  write f := by
    rw [modifyState, hsplit, modify_length_cons]
    exact modifyLast_of_last _ (by simp) (by simpa using hafter)

theorem finds_of_nodup {p : Project} {before after : List Target} {t : Target}
    (hids : (p.targets.map Target.id).Nodup) (hsplit : p.targets = before ++ t :: after) :
    p.Finds t.id before.length t := by
  rw [hsplit, List.map_append, List.map_cons, List.nodup_append, List.nodup_cons] at hids
  exact finds_of_last hsplit fun u hu hid => hids.2.1.1 (hid ▸ List.mem_map_of_mem hu)

/-- An id finds only the last target that has it. -/
theorem Finds.last {p : Project} {before after : List Target} {t : Target}
    (h : p.Finds t.id before.length t) (hsplit : p.targets = before ++ t :: after) :
    ∀ u ∈ after, u.id ≠ t.id := by
  intro u hu hid
  obtain ⟨f, hf⟩ :
      ∃ f : TargetState → TargetState, ∀ state, (f state).costume = state.costume + 1 :=
    ⟨fun state => { state with costume := state.costume + 1 }, fun _ => rfl⟩
  have hwrite := h.write f
  have hlater : after.any (·.id == t.id) = true := by
    rw [List.any_eq_true]
    exact ⟨u, hu, by simp [hid]⟩
  -- the change passes over the entry, so it would have to leave its state as it is
  simp only [modifyState, hsplit, modify_length_cons] at hwrite
  rw [modifyLast_append _ (by simp), modifyLast, if_pos hlater, List.append_cancel_left_eq,
    List.cons.injEq] at hwrite
  have hcostume := congrArg (·.state.costume) hwrite.1
  simp [hf] at hcostume

/-- A thread that starts with the green flag runs against what the id of its target finds. -/
theorem Finds.runsOn {p : Project} {i : Nat} {t : Target} (h : p.Finds t.id i t) {thread : Thread}
    (hthread : thread ∈ t.flagScripts) : p.RunsOn thread i t := by
  obtain ⟨hat, _, rfl⟩ := List.mem_map.mp hthread
  have hcurrent : (Thread.start t.id (some hat) .interpreted).currentTarget = t.id := rfl
  have htarget : (Scene.mk p (.start t.id (some hat) .interpreted)).target? = some t := by
    rw [Scene.target?, hcurrent, h.read]
  refine ⟨htarget, fun id => ?_, fun f => ?_⟩
  · rw [Scene.block?, htarget, Option.bind_some]
  · rw [Scene.modifyTarget, hcurrent]
    exact h.write f

/-- If the targets have an id each, all threads that start with the green flag are at such a hat. -/
theorem block?_of_mem_flagScripts {p : Project} (hids : (p.targets.map Target.id).Nodup)
    {thread : Thread} (hthread : thread ∈ p.flagScripts) :
    ∃ hat b, thread.topOfStack? = some hat ∧ (Scene.mk p thread).block? hat = some b ∧
      b.topLevel ∧ b.opcode = "event_whenflagclicked" := by
  obtain ⟨t, ht, hstart⟩ := List.mem_flatMap.mp hthread
  obtain ⟨before, after, hsplit⟩ := List.append_of_mem ht
  have hruns := (finds_of_nodup hids hsplit).runsOn hstart
  obtain ⟨hat, hmem, rfl⟩ := List.mem_map.mp hstart
  obtain ⟨b, hb, htop, hop⟩ := (t.blocks.mem_hats_iff _ hat).mp hmem
  exact ⟨hat, b, rfl, (hruns.block hat).trans hb, htop, hop⟩

/-- **When a target goes by its own id.** The id of entry `i` finds that entry, and the scripts that
start on it run against it, if and only if no later entry has the id. -/
theorem own_id_iff (p : Project) (i : Nat) (t : Target) (hentry : p.targets[i]? = some t) :
    (p.Finds t.id i t ∧ ∀ thread ∈ t.flagScripts, p.RunsOn thread i t) ↔
      ∀ j u, i < j → p.targets[j]? = some u → u.id ≠ t.id := by
  obtain ⟨before, after, hsplit, rfl⟩ := exists_split_of_getElem? hentry
  have hget (k : Nat) : p.targets[before.length + 1 + k]? = after[k]? := by
    rw [hsplit, List.getElem?_append_right (by omega),
      show before.length + 1 + k - before.length = k + 1 by omega, List.getElem?_cons_succ]
  constructor
  · rintro ⟨hfinds, _⟩ j u hj hu
    obtain ⟨k, rfl⟩ := Nat.exists_eq_add_of_le (Nat.succ_le_of_lt hj)
    rw [hget] at hu
    exact hfinds.last hsplit u (List.mem_of_getElem? hu)
  · intro hlater
    have hfinds : p.Finds t.id before.length t := by
      refine finds_of_last hsplit fun u hu => ?_
      obtain ⟨k, hk⟩ := List.mem_iff_getElem?.mp hu
      exact hlater (before.length + 1 + k) u (by omega) ((hget k).trans hk)
    exact ⟨hfinds, fun thread hthread => hfinds.runsOn hthread⟩

/-- Two sprites with an id each, and a script of the first. -/
def twoSprites : Json :=
  .object [("targets", .list [
    .object [("id", .text "cat"), ("isStage", .bool false), ("name", .text "Cat"),
      ("blocks", .object [("hat", .object [
        ("opcode", .text "event_whenflagclicked"), ("topLevel", .bool true)])])],
    .object [("id", .text "copy"), ("isStage", .bool false), ("name", .text "Cat")]])]

theorem own_id_iff_twoSprites :
    ∃ p warnings cat thread, load {} twoSprites.compact = .ok (p, warnings) ∧
      p.targets[0]? = some cat ∧ thread ∈ cat.flagScripts ∧ p.Finds cat.id 0 cat ∧
      p.RunsOn thread 0 cat := by
  let view (t : Target) := (t.id, t.blocks.hats "event_whenflagclicked")
  have hexact : twoSprites.Exact := by
    simp [twoSprites, Json.Exact, Json.ExactItems, Json.ExactMembers]
  have hload : ((load {} twoSprites.compact).toOption.map Prod.fst).map
      (fun p => p.targets.map view) = some [("cat", ["hat"]), ("copy", [])] := by
    rw [load, Json.decodeText_compact _ _ hexact]
    decide +kernel
  obtain ⟨p, warnings, hp, hview⟩ := exists_loaded hload
  obtain ⟨cat, rest, htargets, hcat, hrest⟩ := List.map_eq_cons_iff.mp hview
  obtain ⟨copy, others, rfl, hcopy, hothers⟩ := List.map_eq_cons_iff.mp hrest
  obtain rfl := List.map_eq_nil_iff.mp hothers
  simp only [view, Prod.mk.injEq] at hcat hcopy
  have hentry : p.targets[0]? = some cat := by rw [htargets]; rfl
  obtain ⟨hfinds, hruns⟩ := (own_id_iff p 0 cat hentry).mpr fun j u hj hu => by
    rw [htargets] at hu
    obtain rfl : j = 1 := by
      have hlt := (List.getElem?_eq_some_iff.mp hu).1
      simp only [List.length_cons, List.length_nil] at hlt
      omega
    obtain rfl : copy = u := by simpa using hu
    rw [hcat.1, hcopy.1]
    decide
  have hthread : Thread.start cat.id (some "hat") .interpreted ∈ cat.flagScripts := by
    simp [Target.flagScripts, hcat.2]
  exact ⟨p, warnings, cat, _, hp, hentry, hthread, hfinds, hruns _ hthread⟩

/-! ### Two targets with one id -/

/-- The text of a project in which one sprite has no id, and its name is the id of another. -/
def sharedId : String :=
  "\x7b\"targets\":[\x7b\"isStage\":false,\"name\":\"Cat\",\"blocks\":\x7b\"hat\":\x7b" ++
      "\"opcode\":\"event_whenflagclicked\",\"topLevel\":true," ++
      "\"inputs\":\x7b\"a\":[2,\"b\"]\x7d\x7d\x7d\x7d," ++
    "\x7b\"id\":\"Cat\",\"isStage\":false,\"name\":\"Copy\"\x7d]\x7d"

/-- What the text gives: the script belongs to the first sprite, and the second has no blocks. -/
structure IsShared (p : Project) (cat copy : Target) : Prop where
  targets : p.targets = [cat, copy]
  id : cat.id = "Cat" ∧ copy.id = "Cat"
  hats : cat.blocks.hats "event_whenflagclicked" = ["hat"]
  branch : cat.blocks.branch? "hat" "a" = some "b"
  empty : copy.blocks.block? "hat" = none

theorem load_sharedId :
    ∃ p warnings cat copy, load {} sharedId = .ok (p, warnings) ∧ IsShared p cat copy := by
  let view (t : Target) := (t.id, t.blocks.hats "event_whenflagclicked",
    t.blocks.branch? "hat" "a", (t.blocks.block? "hat").isSome)
  have hload : ((load {} sharedId).toOption.map Prod.fst).map (fun p => p.targets.map view) =
      some [("Cat", ["hat"], some "b", true), ("Cat", [], none, false)] := by decide +kernel
  obtain ⟨p, warnings, hp, hview⟩ := exists_loaded hload
  obtain ⟨cat, copy, htargets, hcat, hcopy⟩ :
      ∃ cat copy, p.targets = [cat, copy] ∧
        view cat = ("Cat", ["hat"], some "b", true) ∧ view copy = ("Cat", [], none, false) := by
    obtain ⟨cat, rest, hl, hcat, hrest⟩ := List.map_eq_cons_iff.mp hview
    obtain ⟨copy, rest', rfl, hcopy, hrest'⟩ := List.map_eq_cons_iff.mp hrest
    rw [List.map_eq_nil_iff.mp hrest'] at hl
    exact ⟨cat, copy, hl, hcat, hcopy⟩
  simp only [view, Prod.mk.injEq, Option.isSome_eq_false_iff, Option.isNone_iff_eq_none]
    at hcat hcopy
  exact ⟨p, warnings, cat, copy, hp,
    ⟨htargets, ⟨hcat.1, hcopy.1⟩, hcat.2.1, hcat.2.2.1, hcopy.2.2.2⟩⟩

section

variable {p : Project} {cat copy : Target}

/-- The id finds the second sprite, and no id finds the first. -/
theorem IsShared.found (h : IsShared p cat copy) : p.target? "Cat" = some copy := by
  simp [target?, h.targets, h.id.2]

theorem IsShared.found_only (h : IsShared p cat copy) {id : String} {t : Target}
    (ht : p.target? id = some t) : t = copy := by
  have hid : id = "Cat" := by
    have hmem := mem_of_target? ht
    simp only [h.targets, List.mem_cons, List.not_mem_nil, or_false] at hmem
    rw [← id_of_target? ht]
    rcases hmem with rfl | rfl
    · exact h.id.1
    · exact h.id.2
  rw [hid, h.found, Option.some.injEq] at ht
  exact ht.symm

theorem IsShared.hat_ne_none (h : IsShared p cat copy) : cat.blocks.block? "hat" ≠ none := by
  intro hnone
  have hbranch := h.branch
  simp [Blocks.branch?, hnone] at hbranch

end

/-- The sprite without an id is out of reach, and its script reads the blocks of the other. -/
theorem sharedId_not_own_id :
    ∃ p warnings cat thread, load {} sharedId = .ok (p, warnings) ∧ p.targets[0]? = some cat ∧
      p.target? cat.id ≠ some cat ∧ thread ∈ cat.flagScripts ∧
      (Scene.mk p thread).block? "hat" ≠ cat.blocks.block? "hat" := by
  obtain ⟨p, warnings, cat, copy, hload, h⟩ := load_sharedId
  have hother : copy.blocks.block? "hat" ≠ cat.blocks.block? "hat" := by
    rw [h.empty]
    exact Ne.symm h.hat_ne_none
  refine ⟨p, warnings, cat, .start cat.id (some "hat") .interpreted, hload, by rw [h.targets]; rfl,
    ?_, ?_, ?_⟩
  · intro hown
    rw [h.id.1, h.found, Option.some.injEq] at hown
    exact hother (congrArg (·.blocks.block? "hat") hown)
  · simp [Target.flagScripts, h.hats]
  · have hcurrent : (Thread.start cat.id (some "hat") .interpreted).currentTarget = "Cat" := h.id.1
    rw [Scene.block?, Scene.target?, hcurrent, h.found]
    exact hother

end Project

end BlockStage
