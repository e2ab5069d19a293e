import BlockStage.Proofs.ProcedureIndex
import BlockStage.Proofs.TargetIndex

/-!
What a resolved branch runs against. A branch is searched by walking the targets, but runs against
what the id of its owner finds, and the two part where targets share an id: `branchLaw_iff` says
when they agree.
-/

namespace BlockStage

variable {caller entry block : String}

/-! ## Which target has a branch -/

/-- Among the blocks of the target is `caller`, and its input `entry` holds `block`. -/
def Target.HasBranch (t : Target) (caller entry block : String) : Prop :=
  ∃ b, t.blocks.block? caller = some b ∧ b.inputs[entry]? = some (.block block)

theorem Target.branch?_eq_some_iff (t : Target) :
    t.blocks.branch? caller entry = some block ↔ t.HasBranch caller entry block := by
  simp [Blocks.branch?, Option.bind_eq_some_iff, plugged?_eq_some_iff, HasBranch]

theorem Target.branch?_eq_none_iff (t : Target) :
    t.blocks.branch? caller entry = none ↔ ∀ block, ¬ t.HasBranch caller entry block := by
  simp [Option.eq_none_iff_forall_ne_some, t.branch?_eq_some_iff]

namespace Project

/-- The first target in load order that has the branch. -/
def FirstWith (p : Project) (caller entry : String) (t : Target) (block : String) : Prop :=
  ∃ before after, p.targets = before ++ t :: after ∧ t.HasBranch caller entry block ∧
    ∀ u ∈ before, ∀ b, ¬ u.HasBranch caller entry b

variable {p : Project} {t : Target}

theorem firstWith_iff_findSome? :
    p.FirstWith caller entry t block ↔
      (p.targets.findSome? fun u => (u.blocks.branch? caller entry).map (u, ·)) =
        some (t, block) := by
  rw [List.findSome?_eq_some_iff]
  constructor
  · rintro ⟨before, after, hsplit, hbranch, hbefore⟩
    refine ⟨before, t, after, hsplit, by simp [t.branch?_eq_some_iff.mpr hbranch], fun u hu => ?_⟩
    rw [Option.map_eq_none_iff, u.branch?_eq_none_iff]
    exact hbefore u hu
  · rintro ⟨before, u, after, hsplit, hu, hbefore⟩
    obtain ⟨b, hb, heq⟩ := Option.map_eq_some_iff.mp hu
    obtain ⟨rfl, rfl⟩ := Prod.mk.inj heq
    refine ⟨before, after, hsplit, u.branch?_eq_some_iff.mp hb, fun v hv => ?_⟩
    exact v.branch?_eq_none_iff.mp (Option.map_eq_none_iff.mp (hbefore v hv))

/-- If some target has the branch, one is the first. -/
theorem exists_firstWith (ht : t ∈ p.targets) (hbranch : t.HasBranch caller entry block) :
    ∃ u b, p.FirstWith caller entry u b := by
  have hsome : (p.targets.findSome? fun u =>
      (u.blocks.branch? caller entry).map (u, ·)).isSome := by
    rw [List.findSome?_isSome_iff]
    exact ⟨t, ht, by simp [t.branch?_eq_some_iff.mpr hbranch]⟩
  obtain ⟨⟨u, b⟩, hfound⟩ := Option.isSome_iff_exists.mp hsome
  exact ⟨u, b, firstWith_iff_findSome?.mpr hfound⟩

namespace FirstWith

theorem has (h : p.FirstWith caller entry t block) : t.HasBranch caller entry block := by
  obtain ⟨_, _, _, hbranch, _⟩ := h
  exact hbranch

theorem mem (h : p.FirstWith caller entry t block) : t ∈ p.targets := by
  obtain ⟨before, after, hsplit, _⟩ := h
  simp [hsplit]

theorem unique {u : Target} {b : String} (h : p.FirstWith caller entry t block)
    (h' : p.FirstWith caller entry u b) : u = t ∧ b = block := by
  rw [firstWith_iff_findSome?] at h h'
  rw [h, Option.some.injEq, Prod.mk.injEq] at h'
  exact ⟨h'.1.symm, h'.2.symm⟩

end FirstWith

end Project

/-! ## The search for a branch -/

namespace Scene

/-- An answer to a search for a branch runs against target `owner`: the id finds it, it has the
branch, and a thread that the answer is pushed on reads its blocks. -/
structure RunsAgainst (s : Scene) (caller entry block id : String) (owner : Target) : Prop where
  found : s.project.target? id = some owner
  has : owner.HasBranch caller entry block
  current : (s.thread.pushBranch (some (block, id))).currentTarget = id
  reads (b : String) :
    (s.mapThread (·.pushBranch (some (block, id)))).block? b = owner.blocks.block? b

/-- The law of branches: there is an answer if any target has the branch; it is that of the current
target, or else of the first in load order; and it runs against a target that has the branch. -/
structure BranchLaw (s : Scene) (caller entry : String) : Prop where
  none_iff : s.branch? caller entry = none ↔
    ∀ t ∈ s.project.targets, ∀ block, ¬ t.HasBranch caller entry block
  current {t : Target} {block : String} : s.target? = some t → t.HasBranch caller entry block →
    s.branch? caller entry = some (block, t.id)
  first {t : Target} {block : String} :
    (∀ u, s.target? = some u → ∀ b, ¬ u.HasBranch caller entry b) →
    s.project.FirstWith caller entry t block → s.branch? caller entry = some (block, t.id)
  owned {block id : String} : s.branch? caller entry = some (block, id) →
    ∃ owner, s.RunsAgainst caller entry block id owner

variable {s : Scene}

theorem runsAgainst {id : String} {owner : Target} (hfound : s.project.target? id = some owner)
    (hbranch : owner.HasBranch caller entry block) :
    s.RunsAgainst caller entry block id owner where
  found := hfound
  has := hbranch
  current := s.thread.currentTarget_pushOn block id
  reads b := by
    have hcurrent : (s.mapThread (·.pushBranch (some (block, id)))).thread.currentTarget = id :=
      s.thread.currentTarget_pushOn block id
    rw [block?, target?, hcurrent]
    exact congrArg (Option.bind · _) hfound

theorem branch?_of_current {t : Target} (ht : s.target? = some t)
    (hbranch : t.HasBranch caller entry block) :
    s.branch? caller entry = some (block, t.id) := by
  simp [branch?, ht, t.branch?_eq_some_iff.mpr hbranch]

/-- If the current target has no such branch, the search passes over all targets with its id. -/
theorem branch?_of_others (hcurrent : ∀ t, s.target? = some t → ∀ b, ¬ t.HasBranch caller entry b) :
    s.branch? caller entry =
      (s.project.targets.filter (·.id != s.thread.currentTarget)).findSome? fun t =>
        (t.blocks.branch? caller entry).map (·, t.id) := by
  cases ht : s.target? with
  | none => simp [branch?, ht]
  | some t =>
    have hnone := t.branch?_eq_none_iff.mpr (hcurrent t ht)
    simp [branch?, ht, hnone]

/-- The first target with the branch is the answer, unless it shares the id of the current one. -/
theorem branch?_of_first {t : Target}
    (hcurrent : ∀ u, s.target? = some u → ∀ b, ¬ u.HasBranch caller entry b)
    (hfirst : s.project.FirstWith caller entry t block) (hid : t.id ≠ s.thread.currentTarget) :
    s.branch? caller entry = some (block, t.id) := by
  obtain ⟨before, after, hsplit, hbranch, hbefore⟩ := hfirst
  rw [branch?_of_others hcurrent, List.findSome?_eq_some_iff]
  refine ⟨before.filter (·.id != s.thread.currentTarget), t,
    after.filter (·.id != s.thread.currentTarget), ?_, ?_, ?_⟩
  · simp [hsplit, hid]
  · simp [t.branch?_eq_some_iff.mpr hbranch]
  · intro u hu
    rw [Option.map_eq_none_iff, u.branch?_eq_none_iff]
    exact hbefore u (List.mem_filter.mp hu).1

section

variable {t owner : Target} {id : String}

theorem none_iff_of_answer (hanswer : s.branch? caller entry = some (block, id))
    (ht : t ∈ s.project.targets) (hbranch : t.HasBranch caller entry block) :
    s.branch? caller entry = none ↔
      ∀ t ∈ s.project.targets, ∀ block, ¬ t.HasBranch caller entry block := by
  rw [hanswer]
  exact iff_of_false nofun fun hnot => hnot t ht block hbranch

theorem owned_of_answer (hanswer : s.branch? caller entry = some (block, id))
    (hfound : s.project.target? id = some owner) (hbranch : owner.HasBranch caller entry block)
    {block' id' : String} (h : s.branch? caller entry = some (block', id')) :
    ∃ owner, s.RunsAgainst caller entry block' id' owner := by
  rw [hanswer, Option.some.injEq, Prod.mk.injEq] at h
  obtain ⟨rfl, rfl⟩ := h
  exact ⟨owner, runsAgainst hfound hbranch⟩

theorem branchLaw_of_current (ht : s.target? = some t)
    (hbranch : t.HasBranch caller entry block) : s.BranchLaw caller entry where
  none_iff := none_iff_of_answer (branch?_of_current ht hbranch) (Project.mem_of_target? ht) hbranch
  current := branch?_of_current
  first hnot _ := absurd hbranch (hnot t ht block)
  owned h := by
    have hfound : s.project.target? t.id = some t := by rwa [Project.id_of_target? ht]
    exact owned_of_answer (branch?_of_current ht hbranch) hfound hbranch h

theorem branchLaw_of_first
    (hcurrent : ∀ u, s.target? = some u → ∀ b, ¬ u.HasBranch caller entry b)
    (hfirst : s.project.FirstWith caller entry t block)
    (hfound : s.project.target? t.id = some owner)
    (hbranch : owner.HasBranch caller entry block) : s.BranchLaw caller entry := by
  -- otherwise the owner would be the current target, which has no such branch
  have hid : t.id ≠ s.thread.currentTarget := by
    intro hid
    exact hcurrent owner (by rw [target?, ← hid, hfound]) block hbranch
  have hanswer := branch?_of_first hcurrent hfirst hid
  refine ⟨none_iff_of_answer hanswer hfirst.mem hfirst.has,
    fun ht h => absurd h (hcurrent _ ht _), ?_, owned_of_answer hanswer hfound hbranch⟩
  intro u b _ hu
  obtain ⟨rfl, rfl⟩ := hfirst.unique hu
  exact hanswer

theorem branchLaw_of_none (hnone : ∀ t ∈ s.project.targets, ∀ b, ¬ t.HasBranch caller entry b) :
    s.BranchLaw caller entry := by
  have hcurrent (u : Target) (hu : s.target? = some u) (b : String) :
      ¬ u.HasBranch caller entry b := hnone u (Project.mem_of_target? hu) b
  have hanswer : s.branch? caller entry = none := by
    rw [branch?_of_others hcurrent, List.findSome?_eq_none_iff]
    intro u hu
    rw [Option.map_eq_none_iff, u.branch?_eq_none_iff]
    exact hnone u (List.mem_filter.mp hu).1
  refine ⟨iff_of_true hanswer hnone, fun hu h => absurd h (hcurrent _ hu _),
    fun _ hfirst => absurd hfirst.has (hnone _ hfirst.mem _), fun h => ?_⟩
  rw [hanswer] at h
  cases h

end

theorem branchLaw_of_owners (h : ∀ t block, s.project.FirstWith caller entry t block →
      ∃ owner, s.project.target? t.id = some owner ∧ owner.HasBranch caller entry block) :
    s.BranchLaw caller entry := by
  by_cases hcurrent : ∃ t block, s.target? = some t ∧ t.HasBranch caller entry block
  · obtain ⟨t, block, ht, hbranch⟩ := hcurrent
    exact branchLaw_of_current ht hbranch
  by_cases hsome : ∃ t block, s.project.FirstWith caller entry t block
  · obtain ⟨t, block, hfirst⟩ := hsome
    obtain ⟨owner, hfound, hbranch⟩ := h t block hfirst
    exact branchLaw_of_first (fun u hu b hb => hcurrent ⟨u, b, hu, hb⟩) hfirst hfound hbranch
  · exact branchLaw_of_none fun t ht b hb => hsome (Project.exists_firstWith ht hb)

/-- The law holds in every project whose targets have an id each. -/
theorem branchLaw_of_nodup (hids : (s.project.targets.map Target.id).Nodup) :
    s.BranchLaw caller entry := by
  refine branchLaw_of_owners fun t block hfirst => ⟨t, ?_, hfirst.has⟩
  obtain ⟨before, after, hsplit, _⟩ := hfirst
  exact (Project.finds_of_nodup hids hsplit).read

/-- **The law of branches.** It holds at an input of a caller if and only if the current target has
a branch there, or the id of the first target that has one finds a target with the same branch. -/
theorem branchLaw_iff (s : Scene) (caller entry : String) :
    s.BranchLaw caller entry ↔
      (∃ t block, s.target? = some t ∧ t.HasBranch caller entry block) ∨
      ∀ t block, s.project.FirstWith caller entry t block →
        ∃ owner, s.project.target? t.id = some owner ∧ owner.HasBranch caller entry block := by
  constructor
  · intro hlaw
    by_cases hcurrent : ∃ t block, s.target? = some t ∧ t.HasBranch caller entry block
    · exact .inl hcurrent
    · refine .inr fun t block hfirst => ?_
      have hanswer := hlaw.first (fun u hu b hb => hcurrent ⟨u, b, hu, hb⟩) hfirst
      obtain ⟨owner, howner⟩ := hlaw.owned hanswer
      exact ⟨owner, howner.found, howner.has⟩
  · rintro (⟨t, block, ht, hbranch⟩ | howners)
    · exact branchLaw_of_current ht hbranch
    · exact branchLaw_of_owners howners

/-- Of two sprites with one id the first has a branch. A thread on that id never gets it, and no
thread gets it and runs against the blocks of its owner. -/
theorem sharedId_not_branchLaw :
    ∃ p warnings cat, Project.load {} Project.sharedId = .ok (p, warnings) ∧ cat ∈ p.targets ∧
      cat.HasBranch "hat" "a" "b" ∧
      (Scene.mk p (.start "Cat" none .interpreted)).branch? "hat" "a" = none ∧
      ∀ thread, ¬ (Scene.mk p thread).BranchLaw "hat" "a" := by
  obtain ⟨p, warnings, cat, copy, hload, h⟩ := Project.load_sharedId
  have hcat : cat.HasBranch "hat" "a" "b" := cat.branch?_eq_some_iff.mp h.branch
  have hcopy (b : String) : ¬ copy.HasBranch "hat" "a" b := by
    rintro ⟨hat, hhat, _⟩
    rw [h.empty] at hhat
    cases hhat
  refine ⟨p, warnings, cat, hload, by simp [h.targets], hcat, ?_, fun thread hlaw => ?_⟩
  · have hcurrent : (Thread.start "Cat" none .interpreted).currentTarget = "Cat" := rfl
    rw [branch?_of_others fun u hu => by rw [h.found_only hu]; exact hcopy]
    simp [hcurrent, h.targets, h.id]
  · have hfirst : p.FirstWith "hat" "a" cat "b" := ⟨[], [copy], h.targets, hcat, nofun⟩
    have hanswer := hlaw.first (fun u hu => by rw [h.found_only hu]; exact hcopy) hfirst
    obtain ⟨owner, howner⟩ := hlaw.owned hanswer
    have hhas := howner.has
    rw [h.found_only howner.found] at hhas
    exact hcopy "b" hhas

end Scene

end BlockStage
