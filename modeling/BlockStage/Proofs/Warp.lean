import BlockStage.Proofs.Moves

/-!
How long warp mode lasts. The body of a warp procedure starts in warp mode and hands it to all that
is pushed above. A block that takes the place of the body takes the mode from beneath instead, that
is, from the caller.
-/

namespace BlockStage

namespace Scene

/-! ## Runs above a height -/

/-- The run never pops what is on the stack up to height `h`. -/
def KeepsUpTo (h : Nat) (s : Scene) (moves : List Move) : Prop :=
  ∀ after ∈ s.visited moves, h ≤ after.thread.stack.length

/-- The run puts a block in place of the entry at height `h`, while that is the top. -/
def ReusesAt (h : Nat) (s : Scene) : List Move → Prop
  | [] => False
  | m :: moves =>
    (s.thread.stack.length = h ∧ ∃ next, m = .reuse next) ∨ (s.move m).ReusesAt h moves

instance (h : Nat) (s : Scene) (moves : List Move) : Decidable (s.KeepsUpTo h moves) :=
  inferInstanceAs (Decidable (∀ after ∈ s.visited moves, _))

instance decidableReusesAt (h : Nat) (s : Scene) :
    (moves : List Move) → Decidable (s.ReusesAt h moves)
  | [] => inferInstanceAs (Decidable False)
  | m :: moves =>
    have : Decidable ((s.move m).ReusesAt h moves) := decidableReusesAt h (s.move m) moves
    inferInstanceAs (Decidable (_ ∨ _))

theorem KeepsUpTo.tail {h : Nat} {s : Scene} {m : Move} {moves : List Move}
    (hkeeps : s.KeepsUpTo h (m :: moves)) : (s.move m).KeepsUpTo h moves :=
  fun after hafter => hkeeps after (List.mem_cons_of_mem _ hafter)

theorem KeepsUpTo.head {h : Nat} {s : Scene} {moves : List Move} (hkeeps : s.KeepsUpTo h moves) :
    h ≤ s.thread.stack.length :=
  hkeeps s (s.mem_visited moves)

/-! ## The mode of a body -/

/-- The mode that an entry on `base` takes from beneath. -/
def modeBeneath (base : List Entry) : Bool := base.head?.any (·.frame.warp)

theorem topFrame_any_warp (t : Thread) : t.topFrame?.any Frame.warp = modeBeneath t.stack := by
  simp [Thread.topFrame?, modeBeneath, Option.any_map]

/-- An entry stands on `base` with warp mode `warp`, and hands warp mode to all above. -/
def StandsOn (base : List Entry) (warp : Bool) (s : Scene) : Prop :=
  ∃ above body, s.thread.stack = above ++ body :: base ∧ body.frame.warp = warp ∧
    (warp = true → ∀ e ∈ above, e.frame.warp = true)

/-- Above an entry in warp mode, the top is in warp mode. -/
theorem topFrame_warp {t : Thread} {above base : List Entry} {body : Entry}
    (hstack : t.stack = above ++ body :: base) (hbody : body.frame.warp = true)
    (habove : ∀ e ∈ above, e.frame.warp = true) : t.topFrame?.any Frame.warp = true := by
  rw [topFrame_any_warp, modeBeneath, hstack]
  cases above with
  | nil => simp [hbody]
  | cons top above => simp [habove top (by simp)]

theorem StandsOn.pushed {base : List Entry} {warp : Bool} {s after : Scene} {e : Entry}
    (h : s.StandsOn base warp) (hstack : after.thread.stack = e :: s.thread.stack)
    (he : s.thread.topFrame?.any Frame.warp = true → e.frame.warp = true) :
    after.StandsOn base warp := by
  obtain ⟨above, body, hs, hbody, habove⟩ := h
  refine ⟨e :: above, body, by rw [hstack, hs]; rfl, hbody, ?_⟩
  rintro rfl
  simpa using ⟨he (topFrame_warp hs hbody (habove rfl)), habove rfl⟩

theorem StandsOn.popped {base : List Entry} {warp : Bool} {s after : Scene}
    (h : s.StandsOn base warp) (hstack : after.thread.stack = s.thread.stack.tail)
    (hkeeps : base.length < after.thread.stack.length) : after.StandsOn base warp := by
  obtain ⟨above, body, hs, hbody, habove⟩ := h
  cases above with
  | nil => simp [hstack, hs] at hkeeps
  | cons top above =>
    refine ⟨above, body, by rw [hstack, hs]; rfl, hbody, ?_⟩
    intro hwarp e he
    exact habove hwarp e (List.mem_cons_of_mem _ he)

/-- A block in place of an entry above the body takes the mode of the entry beneath it. -/
theorem StandsOn.reused_above {base below : List Entry} {warp : Bool} {s after : Scene}
    {top e : Entry} (h : s.StandsOn base warp) (hs : s.thread.stack = top :: below)
    (hstack : after.thread.stack = e :: below) (he : e.frame.warp = modeBeneath below)
    (habove : base.length + 1 < s.thread.stack.length) : after.StandsOn base warp := by
  have hpop : (s.move .pop).thread.stack = below := by
    rw [show (s.move .pop).thread.stack = s.thread.stack.tail from rfl, hs, List.tail_cons]
  have hheight : base.length < (s.move .pop).thread.stack.length := by
    rw [hs, List.length_cons] at habove
    rw [hpop]
    omega
  have hbelow : (s.move .pop).StandsOn base warp := h.popped rfl hheight
  refine hbelow.pushed (by rw [hstack, hpop]) ?_
  rw [topFrame_any_warp, hpop, he]
  exact id

/-- A block in place of the body takes the mode of the caller. -/
theorem StandsOn.reused_body {base below : List Entry} {warp : Bool} {s after : Scene}
    {top e : Entry} (h : s.StandsOn base warp) (hs : s.thread.stack = top :: below)
    (hstack : after.thread.stack = e :: below) (he : e.frame.warp = modeBeneath below)
    (hheight : s.thread.stack.length = base.length + 1) :
    after.StandsOn base (modeBeneath base) := by
  obtain ⟨above, body, hs', _, _⟩ := h
  have habove : above = [] := by
    rw [hs'] at hheight
    simpa using hheight
  subst habove
  have hbelow : below = base := by
    rw [hs, List.nil_append, List.cons.injEq] at hs'
    exact hs'.2
  subst hbelow
  exact ⟨[], e, hstack, he, by simp⟩

/-- A move that keeps the body also keeps its mode, unless a block takes the place of the body. -/
theorem StandsOn.move {base : List Entry} {warp : Bool} {s : Scene} (h : s.StandsOn base warp)
    (m : Move) (hkeeps : base.length < (s.move m).thread.stack.length)
    (hother : ¬ (s.thread.stack.length = base.length + 1 ∧ ∃ next, m = .reuse next)) :
    (s.move m).StandsOn base warp := by
  rcases s.stack_move_cases m with ⟨block, mode, target, hstack, hwarp, _⟩ | ⟨_, _, hstack⟩ |
    ⟨_, hstack⟩ | ⟨next, top, below, hm, hs, hstack⟩
  · exact h.pushed hstack hwarp
  · obtain ⟨above, body, hs, hbody⟩ := h
    exact ⟨above, body, hstack.trans hs, hbody⟩
  · exact h.popped hstack hkeeps
  · have hlength : (s.move m).thread.stack.length = s.thread.stack.length := by
      rw [hstack, hs]
      rfl
    have hheight : s.thread.stack.length ≠ base.length + 1 := fun heq => hother ⟨heq, next, hm⟩
    exact h.reused_above hs hstack rfl (by omega)

theorem StandsOn.move_reuse {base : List Entry} {warp : Bool} {s : Scene}
    (h : s.StandsOn base warp) (next : Option String)
    (hheight : s.thread.stack.length = base.length + 1) :
    (s.move (.reuse next)).StandsOn base (modeBeneath base) := by
  cases hs : s.thread.stack with
  | nil => simp [hs] at hheight
  | cons top below =>
    exact h.reused_body hs (Thread.stack_reuse_of_cons hs next) rfl hheight

/-- **One run.** The mode of a body that is kept is its first one until a block takes its place, and
the mode of the caller from then on. -/
theorem StandsOn.run {base : List Entry} {warp : Bool} {s : Scene} (h : s.StandsOn base warp)
    (moves : List Move) (hkeeps : s.KeepsUpTo (base.length + 1) moves) :
    ∃ after, (s.run moves).StandsOn base after ∧
      (¬ s.ReusesAt (base.length + 1) moves → after = warp) ∧
      (s.ReusesAt (base.length + 1) moves → after = modeBeneath base) := by
  induction moves generalizing s warp with
  | nil => exact ⟨warp, h, fun _ => rfl, False.elim⟩
  | cons m moves ih =>
    have hnext := hkeeps.tail
    by_cases hreuse : s.thread.stack.length = base.length + 1 ∧ ∃ next, m = .reuse next
    · obtain ⟨hheight, next, rfl⟩ := hreuse
      obtain ⟨after, hafter, hfirst, hthen⟩ := ih (h.move_reuse next hheight) hnext
      refine ⟨after, hafter, fun hnever => absurd (.inl ⟨hheight, next, rfl⟩) hnever, fun _ => ?_⟩
      -- the new mode is already that of the caller, so a second block changes nothing
      by_cases hagain : (s.move (.reuse next)).ReusesAt (base.length + 1) moves
      · exact hthen hagain
      · exact hfirst hagain
    · obtain ⟨after, hafter, hfirst, hthen⟩ := ih (h.move m hnext.head hreuse) hnext
      refine ⟨after, hafter, ?_, ?_⟩
      · exact fun hnever => hfirst fun hagain => hnever (.inr hagain)
      · rintro (hnow | hagain)
        · exact absurd hnow hreuse
        · exact hthen hagain

/-! ## Warp procedures -/

/-- **How long warp mode lasts.** The body of a warp procedure is kept over a run. Then it and all
above are in warp mode if and only if the caller is, or no block has taken the place of the body. -/
theorem warp_lasts_iff (s : Scene) (code id : String) (signature : Signature)
    (hdef : s.definition? code = some id) (hsig : s.signature? code = some signature)
    (hwarp : signature.warp = true) (moves : List Move)
    (hkeeps : (s.startProcedure code).KeepsUpTo (s.thread.stack.length + 1) moves) :
    ∃ above body,
      ((s.startProcedure code).run moves).thread.stack = above ++ body :: s.thread.stack ∧
      ((body.frame.warp = true ∧ ∀ e ∈ above, e.frame.warp = true) ↔
        s.thread.topFrame?.any Frame.warp = true ∨
          ¬ (s.startProcedure code).ReusesAt (s.thread.stack.length + 1) moves) := by
  have hstack := (startProcedure_enters hdef hsig).2.1
  have hstands : (s.startProcedure code).StandsOn s.thread.stack true :=
    ⟨[], _, hstack, by simp [hwarp], by simp⟩
  obtain ⟨after, ⟨above, body, hrun, hbody, habove⟩, hfirst, hthen⟩ := hstands.run moves hkeeps
  refine ⟨above, body, hrun, ?_⟩
  rw [topFrame_any_warp]
  constructor
  · rintro ⟨hmode, _⟩
    by_cases hreuse : (s.startProcedure code).ReusesAt (s.thread.stack.length + 1) moves
    · exact .inl (by rw [← hthen hreuse, ← hbody, hmode])
    · exact .inr hreuse
  · intro hcase
    have hmode : after = true := by
      by_cases hreuse : (s.startProcedure code).ReusesAt (s.thread.stack.length + 1) moves
      · exact (hthen hreuse).trans (hcase.resolve_right (not_not_intro hreuse))
      · exact hfirst hreuse
    exact ⟨hbody.trans hmode, habove hmode⟩

/-- A call without warp mode, of a procedure with it. -/
def warpScene : Scene :=
  soloScene
    (.ofList [("def", hatOf "proto"), ("proto", prototypeOf "go" "[]" "[]" true)])
    [{ block := some "call" }]

theorem warp_lasts_iff_warpScene :
    ∃ above body,
      ((warpScene.startProcedure "go").run
        [.push (some "branch"), .reuse (some "next"), .pop]).thread.stack =
          above ++ body :: warpScene.thread.stack ∧
      body.frame.warp = true ∧ ∀ e ∈ above, e.frame.warp = true := by
  obtain ⟨signature, hsig, hwarp⟩ := Option.map_eq_some_iff.mp
    (show (warpScene.signature? "go").map Signature.warp = some true by decide +kernel)
  obtain ⟨above, body, hstack, hiff⟩ :=
    warp_lasts_iff warpScene "go" "def" signature (by decide +kernel) hsig hwarp
      [.push (some "branch"), .reuse (some "next"), .pop] (by decide +kernel)
  exact ⟨above, body, hstack, hiff.mpr (.inr (by decide +kernel))⟩

/-- The second block of the body is out of warp mode, and nothing was popped. -/
theorem warpScene_loses_warp :
    warpScene.definition? "go" = some "def" ∧
      (warpScene.signature? "go").any Signature.warp = true ∧
      (warpScene.startProcedure "go").KeepsUpTo 2 [.reuse (some "next")] ∧
      ((warpScene.startProcedure "go").run [.reuse (some "next")]).thread.stack.map
          (fun e => (e.block, e.frame.warp)) =
        [(some "next", false), (some "call", false)] := by
  refine ⟨?_, ?_, ?_, ?_⟩ <;> decide +kernel

end Scene

end BlockStage
