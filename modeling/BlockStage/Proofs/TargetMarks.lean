import BlockStage.Proofs.Warp

/-!
What the target marks on frames stand for. A frame is marked only where the target changes, and the
current target is found by a search down the stack. A ledger stores the target of every entry and
needs no search. The two make the same moves and have the same current target after each of them.
-/

namespace BlockStage

/-! ## Ledgers -/

/-- A stack, the top first, whose entries each store the target they run against. -/
structure Ledger where
  home : String
  entries : List (Option String × String) := []

namespace Ledger

/-- The target of the top entry. An empty stack is at home. -/
def current (l : Ledger) : String := (l.entries.head?.map Prod.snd).getD l.home

/-- A plain entry copies the target of the entry beneath. -/
def push (l : Ledger) (block : Option String) : Ledger :=
  { l with entries := (block, l.current) :: l.entries }

def pushOn (l : Ledger) (block target : String) : Ledger :=
  { l with entries := (some block, target) :: l.entries }

def pop (l : Ledger) : Ledger := { l with entries := l.entries.tail }

/-- The next block of a sequence keeps the target of the one it follows. -/
def reuse (l : Ledger) (block : Option String) : Ledger :=
  match l.entries with
  | [] => l.push block
  | (_, target) :: below => { l with entries := (block, target) :: below }

/-- The definition of a procedure, among the blocks of the target of the top entry. -/
def definition? (p : Project) (l : Ledger) (code : String) : Option String :=
  (p.target? l.current).bind (·.blocks.definition? code)

def move (p : Project) (l : Ledger) : Move → Ledger
  | .push block => l.push block
  | .pushOn block target => l.pushOn block target
  | .pushBranch (some (block, target)) => l.pushOn block target
  | .pushBranch none => l.push none
  | .pop => l.pop
  | .reuse block => l.reuse block
  | .start code =>
    match l.definition? p code with
    | some definition => l.push (some definition)
    | none => l

def run (p : Project) (l : Ledger) (moves : List Move) : Ledger := moves.foldl (move p) l

def targets (l : Ledger) : List String := l.entries.map Prod.snd

theorem current_eq (l : Ledger) : l.current = l.targets.head?.getD l.home := by
  simp [current, targets]

theorem home_move (p : Project) (l : Ledger) (m : Move) : (l.move p m).home = l.home := by
  cases m with
  | pushBranch branch => cases branch <;> rfl
  | reuse block => cases hentries : l.entries <;> simp [move, reuse, hentries, push]
  | start code => cases hdef : l.definition? p code <;> simp [move, hdef, push]
  | _ => rfl

/-- A move stores one more target, drops the last one, or leaves all as they are. -/
theorem targets_move_cases (p : Project) (l : Ledger) (m : Move) :
    (∃ target, (l.move p m).targets = target :: l.targets) ∨
      (l.move p m).targets = l.targets ∨ (l.move p m).targets = l.targets.tail := by
  cases m with
  | push block => exact .inl ⟨l.current, rfl⟩
  | pushOn block target => exact .inl ⟨target, rfl⟩
  | pushBranch branch =>
    cases branch with
    | none => exact .inl ⟨l.current, rfl⟩
    | some branch => exact .inl ⟨branch.2, rfl⟩
  | pop => exact .inr (.inr (by simp [move, pop, targets]))
  | reuse block =>
    cases hentries : l.entries with
    | nil => exact .inl ⟨l.current, by simp [move, reuse, hentries, push, targets]⟩
    | cons top below => exact .inr (.inl (by simp [move, reuse, hentries, targets]))
  | start code =>
    cases hdef : l.definition? p code with
    | none => exact .inr (.inl (by simp [move, hdef]))
    | some definition => exact .inl ⟨l.current, by simp [move, hdef, push, targets]⟩

end Ledger

/-! ## The ledger of a thread -/

/-- The target against which the top of some entries runs. -/
def targetOf (home : String) (entries : List Entry) : String :=
  (entries.findSome? (·.frame.target)).getD home

theorem targetOf_cons (home : String) (e : Entry) (below : List Entry) :
    targetOf home (e :: below) = e.frame.target.getD (targetOf home below) := by
  cases h : e.frame.target <;> simp [targetOf, h]

/-- Entries with their targets written out. -/
def writeOut (home : String) : List Entry → List (Option String × String)
  | [] => []
  | e :: below => (e.block, targetOf home (e :: below)) :: writeOut home below

/-- Every mark changes the target. -/
def Sparse (home : String) : List Entry → Prop
  | [] => True
  | e :: below =>
    (∀ target, e.frame.target = some target → target ≠ targetOf home below) ∧ Sparse home below

namespace Thread

def ledger (t : Thread) : Ledger := ⟨t.home, writeOut t.home t.stack⟩

theorem current_ledger (t : Thread) : t.ledger.current = t.currentTarget := by
  cases hstack : t.stack with
  | nil => simp [ledger, Ledger.current, writeOut, currentTarget, hstack]
  | cons e below => simp [ledger, Ledger.current, writeOut, currentTarget, targetOf, hstack]

theorem length_targets_ledger (t : Thread) : t.ledger.targets.length = t.stack.length := by
  have hlength (entries : List Entry) : (writeOut t.home entries).length = entries.length := by
    induction entries with
    | nil => rfl
    | cons e below ih => simp [writeOut, ih]
  simp [Ledger.targets, ledger, hlength]

/-- One more entry runs against the target of its mark, or else against the current one. -/
theorem ledger_of_cons {t after : Thread} {e : Entry} (hhome : after.home = t.home)
    (hstack : after.stack = e :: t.stack) :
    after.ledger =
      { t.ledger with
        entries := (e.block, e.frame.target.getD t.currentTarget) :: t.ledger.entries } := by
  have htarget : targetOf t.home (e :: t.stack) = e.frame.target.getD t.currentTarget :=
    targetOf_cons t.home e t.stack
  rw [ledger, hstack, hhome, writeOut, htarget]
  rfl

theorem ledger_push (t : Thread) (block : Option String) :
    (t.push block).ledger = t.ledger.push block := by
  have hhome : (t.push block).home = t.home := rfl
  rw [ledger_of_cons hhome (t.stack_push block), Ledger.push, current_ledger]
  rfl

theorem ledger_pushOn (t : Thread) (block target : String) :
    (t.pushOn block target).ledger = t.ledger.pushOn block target := by
  have hhome : (t.pushOn block target).home = t.home := by
    unfold pushOn
    split <;> rfl
  rw [ledger_of_cons hhome (t.stack_pushOn block target)]
  by_cases h : target = t.currentTarget <;> simp [h, Ledger.pushOn]

theorem ledger_pop (t : Thread) : t.pop.ledger = t.ledger.pop := by
  cases hstack : t.stack <;> simp [ledger, Ledger.pop, pop, hstack, writeOut]

theorem ledger_reuse (t : Thread) (block : Option String) :
    (t.reuse block).ledger = t.ledger.reuse block := by
  cases hstack : t.stack with
  | nil =>
    have hreuse : t.reuse block = t.push block := by simp [reuse, hstack]
    have hledger : t.ledger.reuse block = t.ledger.push block := by
      simp [Ledger.reuse, ledger, hstack, writeOut]
    rw [hreuse, hledger, ledger_push]
  | cons top below =>
    have hhome : (t.reuse block).home = t.home := by simp [reuse, hstack]
    rw [ledger, stack_reuse_of_cons hstack, hhome]
    simp [ledger, Ledger.reuse, hstack, writeOut, targetOf_cons, Frame.reuse]

end Thread

namespace Scene

/-! ## The same moves -/

theorem project_move (s : Scene) (m : Move) : (s.move m).project = s.project := by
  cases m with
  | start code =>
    cases hdef : s.definition? code with
    | none => rw [move, startProcedure_of_none hdef]
    | some id =>
      obtain ⟨signature, hsig⟩ := signature?_of_definition? hdef
      exact (startProcedure_enters hdef hsig).1.project
  | _ => rfl

/-- **One move.** The ledger of a thread makes the move that the thread makes. -/
theorem ledger_move (s : Scene) (m : Move) :
    (s.move m).thread.ledger = s.thread.ledger.move s.project m := by
  cases m with
  | push block => exact s.thread.ledger_push block
  | pushOn block target => exact s.thread.ledger_pushOn block target
  | pushBranch branch =>
    cases branch with
    | none => exact s.thread.ledger_push none
    | some branch => exact s.thread.ledger_pushOn branch.1 branch.2
  | pop => exact s.thread.ledger_pop
  | reuse block => exact s.thread.ledger_reuse block
  | start code =>
    have hlook : s.thread.ledger.definition? s.project code = s.definition? code := by
      rw [Ledger.definition?, Thread.current_ledger]
      rfl
    cases hdef : s.definition? code with
    | none => simp [move, Ledger.move, hlook, hdef, startProcedure_of_none hdef]
    | some id =>
      obtain ⟨signature, hsig⟩ := signature?_of_definition? hdef
      obtain ⟨hsame, hstack, _⟩ := startProcedure_enters hdef hsig
      simp only [move, Ledger.move, hlook, hdef]
      rw [Thread.ledger_of_cons hsame.home hstack, Ledger.push, Thread.current_ledger]
      rfl

theorem ledger_run (s : Scene) (moves : List Move) :
    (s.run moves).thread.ledger = s.thread.ledger.run s.project moves := by
  induction moves generalizing s with
  | nil => rfl
  | cons m moves ih =>
    have hnext := ih (s.move m)
    rw [ledger_move, project_move] at hnext
    exact hnext

/-! ## Marks that change the target -/

/-- A move puts on an entry with no mark or with one that changes the target, drops entries, or
replaces the top one by another with its mark. -/
theorem marks_move_cases (s : Scene) (m : Move) :
    (∃ e, (s.move m).thread.stack = e :: s.thread.stack ∧
      ∀ target, e.frame.target = some target → target ≠ s.thread.currentTarget) ∨
    (s.move m).thread.stack = s.thread.stack ∨
    (s.move m).thread.stack = s.thread.stack.tail ∨
    ∃ top e below, s.thread.stack = top :: below ∧ (s.move m).thread.stack = e :: below ∧
      e.frame.target = top.frame.target := by
  have hpushOn (block target : String) :
      ∃ e, (s.thread.pushOn block target).stack = e :: s.thread.stack ∧
        ∀ mark, e.frame.target = some mark → mark ≠ s.thread.currentTarget := by
    refine ⟨_, s.thread.stack_pushOn block target, ?_⟩
    intro mark hmark
    simp only [Option.ite_none_left_eq_some, Option.some.injEq] at hmark
    rw [← hmark.2]
    exact hmark.1
  cases m with
  | push block => exact .inl ⟨_, rfl, by simp⟩
  | pushOn block target => exact .inl (hpushOn block target)
  | pushBranch branch =>
    cases branch with
    | none => exact .inl ⟨_, rfl, by simp⟩
    | some branch => exact .inl (hpushOn branch.1 branch.2)
  | pop => exact .inr (.inr (.inl rfl))
  | reuse block =>
    cases hstack : s.thread.stack with
    | nil =>
      refine .inl ⟨{ block }, ?_, by simp⟩
      rw [← hstack]
      exact Thread.stack_reuse_of_nil hstack block
    | cons top below =>
      exact .inr (.inr (.inr
        ⟨top, _, below, rfl, Thread.stack_reuse_of_cons hstack block, rfl⟩))
  | start code =>
    rcases s.stack_startProcedure code with h | ⟨id, signature, _, _, h⟩
    · exact .inr (.inl h)
    · exact .inl ⟨_, h, by simp⟩

theorem sparse_move {s : Scene} (h : Sparse s.thread.home s.thread.stack) (m : Move) :
    Sparse s.thread.home (s.move m).thread.stack := by
  rcases s.marks_move_cases m with ⟨e, hstack, hmark⟩ | hstack | hstack |
    ⟨top, e, below, hs, hstack, hmark⟩
  · rw [hstack]
    exact ⟨hmark, h⟩
  · rw [hstack]
    exact h
  · rw [hstack]
    cases hs : s.thread.stack with
    | nil => trivial
    | cons top below =>
      rw [hs] at h
      exact h.2
  · rw [hs] at h
    rw [hstack]
    refine ⟨?_, h.2⟩
    intro target htarget
    rw [hmark] at htarget
    exact h.1 target htarget

theorem home_move (s : Scene) (m : Move) : (s.move m).thread.home = s.thread.home := by
  have hledger := congrArg Ledger.home (s.ledger_move m)
  rw [Ledger.home_move] at hledger
  exact hledger

theorem home_run (s : Scene) (moves : List Move) : (s.run moves).thread.home = s.thread.home := by
  induction moves generalizing s with
  | nil => rfl
  | cons m moves ih => exact (ih (s.move m)).trans (s.home_move m)

theorem sparse_run {s : Scene} (h : Sparse s.thread.home s.thread.stack) (moves : List Move) :
    Sparse s.thread.home (s.run moves).thread.stack := by
  induction moves generalizing s with
  | nil => exact h
  | cons m moves ih =>
    have hnext : Sparse (s.move m).thread.home (s.move m).thread.stack := by
      rw [home_move]
      exact sparse_move h m
    rw [← s.home_move m]
    exact ih hnext

/-! ## Nested runs -/

/-- Pushes and pops are properly nested: the run pops what it has pushed, all of it, and no more. -/
def Nested (s : Scene) (moves : List Move) : Prop :=
  s.KeepsUpTo s.thread.stack.length moves ∧
    (s.run moves).thread.stack.length = s.thread.stack.length

/-- Above a height that is kept, targets come and go; up to it they stay. -/
theorem targets_run {s : Scene} {base above : List String}
    (htargets : s.thread.ledger.targets = above ++ base) (moves : List Move)
    (hkeeps : s.KeepsUpTo base.length moves) :
    ∃ above, (s.run moves).thread.ledger.targets = above ++ base := by
  induction moves generalizing s above with
  | nil => exact ⟨above, htargets⟩
  | cons m moves ih =>
    have hlength : base.length ≤ (s.move m).thread.ledger.targets.length := by
      rw [Thread.length_targets_ledger]
      exact hkeeps.tail.head
    have hmove : ∃ above, (s.move m).thread.ledger.targets = above ++ base := by
      rw [ledger_move] at hlength ⊢
      rcases s.thread.ledger.targets_move_cases s.project m with ⟨target, h⟩ | h | h
      · exact ⟨target :: above, by rw [h, htargets]; rfl⟩
      · exact ⟨above, by rw [h, htargets]⟩
      · cases above with
        | nil =>
          have hempty : base = [] := by
            rw [h, htargets, List.nil_append, List.length_tail] at hlength
            exact List.eq_nil_of_length_eq_zero (by omega)
          exact ⟨[], by rw [h, htargets, hempty]; rfl⟩
        | cons target above => exact ⟨above, by rw [h, htargets]; rfl⟩
    obtain ⟨next, hnext⟩ := hmove
    exact ih hnext hkeeps.tail

theorem currentTarget_nested {s : Scene} {moves : List Move} (h : s.Nested moves) :
    (s.run moves).thread.currentTarget = s.thread.currentTarget := by
  obtain ⟨hkeeps, hheight⟩ := h
  have hbase : s.thread.ledger.targets.length = s.thread.stack.length :=
    s.thread.length_targets_ledger
  obtain ⟨above, habove⟩ :=
    targets_run (List.nil_append s.thread.ledger.targets).symm moves (by rw [hbase]; exact hkeeps)
  have hnone : above = [] := by
    have hlength := congrArg List.length habove
    rw [Thread.length_targets_ledger, hheight, List.length_append, hbase] at hlength
    exact List.eq_nil_of_length_eq_zero (by omega)
  rw [← Thread.current_ledger, ← Thread.current_ledger, Ledger.current_eq, Ledger.current_eq,
    habove, hnone, List.nil_append]
  exact congrArg _ (s.home_run moves)

/-- **What the marks stand for.** A thread is on the target that its ledger names, after any run. A
new thread has a ledger of one entry, at home, and never gets a mark that changes nothing. A run
that pops just what it has pushed ends on the target on which it began. -/
theorem marks_implement_targets (p : Project) (t : Thread) (moves : List Move) :
    ((Scene.mk p t).run moves).thread.currentTarget = (t.ledger.run p moves).current ∧
    (∀ home top mode, t = .start home top mode →
      t.ledger = (Ledger.mk home []).push top ∧
        Sparse home ((Scene.mk p t).run moves).thread.stack) ∧
    ((Scene.mk p t).Nested moves →
      ((Scene.mk p t).run moves).thread.currentTarget = t.currentTarget) := by
  refine ⟨?_, ?_, currentTarget_nested⟩
  · rw [← Thread.current_ledger, ledger_run]
  · rintro home top mode rfl
    refine ⟨Thread.ledger_push _ top, ?_⟩
    have hstart : Sparse home (Thread.start home top mode).stack :=
      ⟨fun target htarget => by simp at htarget, trivial⟩
    exact @sparse_run (Scene.mk p (.start home top mode)) hstart moves

/-- From the stage to the cat and back. -/
def visit : List Move := [.pushOn "b" "Cat", .push (some "c"), .pop, .pop]

theorem marks_implement_targets_visit :
    let s : Scene := ⟨{ targets := [] }, .start "Stage" (some "hat") .interpreted⟩
    s.Nested visit ∧ (s.run (visit.take 2)).thread.currentTarget = "Cat" ∧
      Sparse "Stage" (s.run (visit.take 2)).thread.stack ∧
      (s.run visit).thread.currentTarget = "Stage" := by
  intro s
  have hnested : s.Nested visit := ⟨by decide, by decide⟩
  obtain ⟨hledger, hmarks, -⟩ := marks_implement_targets { targets := [] } s.thread (visit.take 2)
  obtain ⟨-, -, hback⟩ := marks_implement_targets { targets := [] } s.thread visit
  exact ⟨hnested, hledger, (hmarks _ _ _ rfl).2, hback hnested⟩

end Scene

end BlockStage
