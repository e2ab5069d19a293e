import BlockStage.Proofs.TwoStacks
import BlockStage.Proofs.Warp

/-!
What pairs the two stacks of a thread. No operation moves one without the other, and what it pushes
is in warp mode if the frame beneath is; `stacks_stay_paired` says so of all that a new thread is
put through.
-/

namespace BlockStage

/-! ## Warp mode -/

/-- Above a frame in warp mode there are only frames in warp mode. -/
def WarpUpward (frames : List Frame) : Prop :=
  frames.Pairwise fun above below => below.warp = true → above.warp = true

namespace WarpUpward

variable {frames others : List Frame} {f : Frame}

theorem pushed (h : WarpUpward frames)
    (hf : frames.head?.any Frame.warp = true → f.warp = true) : WarpUpward (f :: frames) := by
  refine List.pairwise_cons.mpr ⟨fun below hbelow hwarp => hf ?_, h⟩
  cases frames with
  | nil => cases hbelow
  | cons top rest =>
    rcases List.mem_cons.mp hbelow with rfl | hrest
    · simpa using hwarp
    · simpa using (List.pairwise_cons.mp h).1 below hrest hwarp

theorem of_map (h : WarpUpward frames) (hsame : others.map Frame.warp = frames.map Frame.warp) :
    WarpUpward others := by
  have hmodes : (frames.map Frame.warp).Pairwise fun above below => below = true → above = true :=
    List.pairwise_map.mpr h
  rw [← hsame] at hmodes
  exact List.pairwise_map.mp hmodes

end WarpUpward

namespace Columns

/-- Every block has its frame, and warp mode goes upward. -/
structure WellFormed (c : Columns) : Prop where
  length_eq : c.blocks.length = c.frames.length
  warpUpward : WarpUpward c.frames

namespace WellFormed

variable {c : Columns}

theorem pop_eq_none_iff (h : c.WellFormed) : c.pop.1 = none ↔ c.blocks = [] ∧ c.frames = [] := by
  rw [pop, List.head?_eq_none_iff]
  refine ⟨fun hblocks => ⟨hblocks, ?_⟩, And.left⟩
  have hlength := h.length_eq
  rw [hblocks] at hlength
  exact List.length_eq_zero_iff.mp hlength.symm

theorem modifyTop (h : c.WellFormed) {f : Frame → Frame}
    (hf : ∀ frame, (f frame).warp = frame.warp) : (c.modifyTop f).WellFormed := by
  refine ⟨by simp [Columns.modifyTop, h.length_eq], h.warpUpward.of_map ?_⟩
  cases hframes : c.frames <;> simp [Columns.modifyTop, hframes, hf]

theorem modifyOutermost (h : c.WellFormed) {f : Frame → Frame}
    (hf : ∀ frame, (f frame).warp = frame.warp) : (c.modifyOutermost f).WellFormed := by
  refine ⟨by simp [Columns.modifyOutermost, h.length_eq], h.warpUpward.of_map ?_⟩
  refine List.ext_getElem? fun i => ?_
  rw [Columns.modifyOutermost, List.getElem?_map, List.getElem?_map, List.getElem?_modify]
  cases c.frames[i]? with
  | none => simp
  | some frame => by_cases hi : c.frames.length - 1 = i <;> simp [hi, hf]

theorem push (h : c.WellFormed) (block : Option String) : (c.push block).WellFormed :=
  ⟨congrArg (· + 1) h.length_eq, h.warpUpward.pushed id⟩

theorem pushOn (h : c.WellFormed) (block target : String) : (c.pushOn block target).WellFormed := by
  unfold Columns.pushOn
  split
  · exact h.push (some block)
  · exact (h.push (some block)).modifyTop fun _ => rfl

theorem pushBranch (h : c.WellFormed) (branch : Option (String × String)) :
    (c.pushBranch branch).WellFormed := by
  cases branch with
  | none => exact h.push none
  | some branch => exact h.pushOn branch.1 branch.2

theorem pop (h : c.WellFormed) : c.pop.2.WellFormed :=
  ⟨by simp [Columns.pop, h.length_eq], h.warpUpward.tail⟩

theorem reuse (h : c.WellFormed) (block : Option String) : (c.reuse block).WellFormed := by
  unfold Columns.reuse
  cases hblocks : c.blocks with
  | nil => exact h.push block
  | cons top below =>
    refine ⟨by simp [← h.length_eq, hblocks], ?_⟩
    cases hframes : c.frames with
    | nil => exact .nil
    | cons frame rest =>
      have hwarp := h.warpUpward
      rw [hframes] at hwarp
      exact WarpUpward.pushed hwarp.tail id

theorem enterBody (h : c.WellFormed) (definition : String) (warp recursive : Bool) :
    (c.enterBody definition warp recursive).WellFormed := by
  have hpushed := h.push (some definition)
  unfold Columns.enterBody
  split
  · exact ⟨hpushed.length_eq, h.warpUpward.pushed fun _ => rfl⟩
  · split
    · exact ⟨hpushed.length_eq, hpushed.warpUpward⟩
    · exact hpushed

theorem startProcedure (h : c.WellFormed) (p : Project) (code : String) :
    (c.startProcedure p code).WellFormed := by
  unfold Columns.startProcedure
  split
  · exact h
  · split
    · exact h
    · exact h.enterBody _ _ _

/-- **One move.** -/
theorem move (h : c.WellFormed) (p : Project) (m : Move) : (c.move p m).WellFormed := by
  cases m with
  | push block => exact h.push block
  | pushOn block target => exact h.pushOn block target
  | pushBranch branch => exact h.pushBranch branch
  | pop => exact h.pop
  | reuse block => exact h.reuse block
  | start code => exact h.startProcedure p code

theorem set (h : c.WellFormed) (p : Project) (args : Arguments) : (c.set p args).WellFormed := by
  unfold Columns.set
  split
  · exact h
  · exact h.modifyOutermost fun _ => rfl

theorem reportCommand (h : c.WellFormed) (p : Project) (args : Arguments) :
    (c.reportCommand p args).WellFormed := by
  unfold Columns.reportCommand
  split
  · exact h
  · split
    · exact h
    · exact h.pushBranch _

theorem markExecuted (h : c.WellFormed) : c.markExecuted.WellFormed := h.modifyTop fun _ => rfl

theorem park (h : c.WellFormed) : c.park.WellFormed := by
  unfold Columns.park
  split
  · exact h.markExecuted
  · exact h

theorem bind? (h : c.WellFormed) {p : Project} {args : Arguments} {code : String} {bound : Columns}
    (hbind : c.bind? p args = some (code, bound)) : bound.WellFormed := by
  obtain ⟨frame, _, hbind⟩ := Option.bind_eq_some_iff.mp hbind
  split at hbind
  · cases hbind
  · obtain ⟨_, _, hbind⟩ := Option.bind_eq_some_iff.mp hbind
    obtain ⟨signature, _, hbind⟩ := Option.bind_eq_some_iff.mp hbind
    cases hbind
    exact h.modifyTop fun frame => by rw [Procedure.bindAll_eq]

end WellFormed

/-- **One run.** -/
theorem Reaches.wellFormed {p q : Project} {c d : Columns} (h : Reaches p c q d)
    (hc : c.WellFormed) : d.WellFormed := by
  induction h with
  | refl => exact hc
  | move m _ ih => exact (ih hc).move _ m
  | status status _ ih => exact ⟨(ih hc).length_eq, (ih hc).warpUpward⟩
  | evaluate op _ ih => exact (ih hc).modifyTop fun _ => rfl
  | set args _ ih => exact (ih hc).set _ args
  | reportCommand args _ ih => exact (ih hc).reportCommand _ args
  | body _ hbind ih => exact ((ih hc).bind? hbind).markExecuted.startProcedure _ _
  | addon _ hbind _ ih ihrun => exact (ihrun ((ih hc).bind? hbind)).park
  | elsewhere _ _ ih => exact ih hc

theorem wellFormed_start (home : String) (topBlock : Option String) (mode : Mode) :
    (start home topBlock mode).WellFormed :=
  ⟨rfl, List.pairwise_singleton _ _⟩

end Columns

/-- **Paired stacks.** With blocks and frames on two stacks, a new thread has the runs that it has
with one stack of entries, blocks and frames being those of the entries. Whatever it is put through,
both stacks stay equally high, popping finds no block just when both are empty, and above a frame in
warp mode all are in warp mode, those that are pushed later included. -/
theorem stacks_stay_paired (p : Project) (home : String) (topBlock : Option String) (mode : Mode) :
    (∀ q c, Columns.Reaches p (.start home topBlock mode) q c ↔
      ∃ s, Scene.Reaches ⟨p, .start home topBlock mode⟩ s ∧ s.project = q ∧
        s.thread.columns = c) ∧
    ∀ q c, Columns.Reaches p (.start home topBlock mode) q c →
      c.blocks.length = c.frames.length ∧
      (c.pop.1 = none ↔ c.blocks = [] ∧ c.frames = []) ∧
      WarpUpward c.frames ∧
      ∀ r d above, Columns.Reaches q c r d → d.frames = above ++ c.frames →
        (∃ f ∈ c.frames, f.warp = true) → ∀ f ∈ above, f.warp = true := by
  have hstart : (Thread.start home topBlock mode).columns = .start home topBlock mode :=
    Thread.columns_push _ topBlock
  refine ⟨fun q c => ⟨fun hreaches => ?_, ?_⟩, fun q c hreaches => ?_⟩
  · obtain ⟨s, hproject, hcolumns, hs⟩ := hreaches.scene _ hstart
    exact ⟨s, hs, hproject, hcolumns⟩
  · rintro ⟨s, hs, rfl, rfl⟩
    rw [← hstart]
    exact hs.columns
  · have hc := hreaches.wellFormed (Columns.wellFormed_start home topBlock mode)
    refine ⟨hc.length_eq, hc.pop_eq_none_iff, hc.warpUpward, ?_⟩
    rintro r d above hlater hframes ⟨below, hbelow, hwarp⟩ f hf
    have hd := (hlater.wellFormed hc).warpUpward
    rw [hframes] at hd
    exact (List.pairwise_append.mp hd).2.2 f hf below hbelow hwarp

/-- In the body of a procedure in warp mode, called by a thread that is not. -/
theorem stacks_stay_paired_warpScene :
    ∃ inside, Columns.Reaches Scene.warpScene.project (.start "Cat" (some "call") .interpreted)
        Scene.warpScene.project inside ∧
      inside.frames.map Frame.warp = [true, false] ∧
      ∀ r d above, Columns.Reaches Scene.warpScene.project inside r d →
        d.frames = above ++ inside.frames → ∀ f ∈ above, f.warp = true := by
  have hcall := Columns.Reaches.move (.start "go")
    (.refl Scene.warpScene.project (.start "Cat" (some "call") .interpreted))
  obtain ⟨_, _, _, hlater⟩ := (stacks_stay_paired _ _ _ _).2 _ _ hcall
  refine ⟨_, hcall, by decide +kernel, fun r d above hrun hframes => ?_⟩
  exact hlater r d above hrun hframes (by decide +kernel)

end BlockStage
