import BlockStage.Proofs.Dispatch

/-!
Runs of stack operations. A host walks its scripts with six of them; each one pushes a single entry,
drops the top, puts a block in its place, or does nothing.
-/

namespace BlockStage

/-- An operation of the host on the stack of a thread. -/
inductive Move where
  | push (block : Option String)
  | pushOn (block target : String)
  | pushBranch (branch : Option (String × String))
  | pop
  | reuse (block : Option String)
  | start (code : String)

instance (m : Move) : Decidable (∃ next, m = .reuse next) :=
  match m with
  | .reuse next => isTrue ⟨next, rfl⟩
  | .push _ | .pushOn _ _ | .pushBranch _ | .pop | .start _ => isFalse (by simp)

/-! ## What the operations leave on the stack -/

namespace Thread

theorem stack_pushOn (t : Thread) (block target : String) :
    (t.pushOn block target).stack =
      { block := some block
        frame := {
          warp := t.topFrame?.any Frame.warp
          target := if target = t.currentTarget then none else some target } } :: t.stack := by
  unfold pushOn
  split <;> rfl

theorem stack_reuse_of_cons {t : Thread} {top : Entry} {below : List Entry}
    (h : t.stack = top :: below) (block : Option String) :
    (t.reuse block).stack =
      { block, frame := top.frame.reuse (below.head?.any (·.frame.warp)) } :: below := by
  simp [reuse, h]

theorem stack_reuse_of_nil {t : Thread} (h : t.stack = []) (block : Option String) :
    (t.reuse block).stack = { block, frame := {} } :: t.stack := by
  simp [reuse, h, topFrame?]

theorem eq_nil_or_outermost (t : Thread) :
    t.stack = [] ∨ ∃ inner outermost, t.stack = inner ++ [outermost] := by
  simpa only [List.concat_eq_append] using List.eq_nil_or_concat t.stack

/-- Changing the outermost frame leaves all above it as it is. -/
theorem modifyOutermost_of_append {t : Thread} {inner : List Entry} {outermost : Entry}
    (h : t.stack = inner ++ [outermost]) (f : Frame → Frame) :
    t.modifyOutermost f =
      { t with stack := inner ++ [{ outermost with frame := f outermost.frame }] } := by
  have hlast : t.stack.length - 1 = inner.length := by simp [h]
  rw [modifyOutermost, hlast, h]
  congr 1
  exact List.modifyTailIdx_add _ 0 _ _

end Thread

namespace Scene

theorem stack_startProcedure (s : Scene) (code : String) :
    (s.startProcedure code).thread.stack = s.thread.stack ∨
      ∃ id signature, s.definition? code = some id ∧ s.signature? code = some signature ∧
        (s.startProcedure code).thread.stack =
          { block := some id
            frame := { warp := s.thread.topFrame?.any Frame.warp || signature.warp } } ::
            s.thread.stack := by
  cases hdef : s.definition? code with
  | none => exact .inl (by rw [startProcedure_of_none hdef])
  | some id =>
    obtain ⟨signature, hsig⟩ := signature?_of_definition? hdef
    exact .inr ⟨id, signature, rfl, hsig, (startProcedure_enters hdef hsig).2.1⟩

/-! ## Moves and runs -/

def move (s : Scene) : Move → Scene
  | .push block => s.mapThread (·.push block)
  | .pushOn block target => s.mapThread (·.pushOn block target)
  | .pushBranch branch => s.mapThread (·.pushBranch branch)
  | .pop => s.mapThread Thread.pop
  | .reuse block => s.mapThread (·.reuse block)
  | .start code => s.startProcedure code

def run (s : Scene) (moves : List Move) : Scene := moves.foldl move s

/-- The scenes that a run passes through, with both ends. -/
def visited (s : Scene) : List Move → List Scene
  | [] => [s]
  | m :: moves => s :: (s.move m).visited moves

theorem mem_visited (s : Scene) (moves : List Move) : s ∈ s.visited moves := by
  cases moves <;> simp [visited]

/-- **One move.** It pushes an entry without a call, in warp mode if the one beneath is; or it finds
no body and changes nothing; or it drops the top, or puts a block in its place. -/
theorem stack_move_cases (s : Scene) (m : Move) :
    (∃ block warp target,
      (s.move m).thread.stack = { block, frame := { warp, target } } :: s.thread.stack ∧
      (s.thread.topFrame?.any Frame.warp = true → warp = true) ∧
      ∀ next, m = .reuse next → s.thread.stack = []) ∨
    (∃ code, m = .start code ∧ (s.move m).thread.stack = s.thread.stack) ∨
    (m = .pop ∧ (s.move m).thread.stack = s.thread.stack.tail) ∨
    ∃ next top below, m = .reuse next ∧ s.thread.stack = top :: below ∧
      (s.move m).thread.stack =
        { block := next, frame := top.frame.reuse (below.head?.any (·.frame.warp)) } :: below := by
  cases m with
  | push block => exact .inl ⟨block, _, none, rfl, id, by simp⟩
  | pushOn block target => exact .inl ⟨_, _, _, s.thread.stack_pushOn block target, id, by simp⟩
  | pushBranch branch =>
    cases branch with
    | none => exact .inl ⟨none, _, none, rfl, id, by simp⟩
    | some branch => exact .inl ⟨_, _, _, s.thread.stack_pushOn branch.1 branch.2, id, by simp⟩
  | pop => exact .inr (.inr (.inl ⟨rfl, rfl⟩))
  | reuse next =>
    cases hstack : s.thread.stack with
    | nil =>
      refine .inl ⟨next, false, none, ?_, by simp [Thread.topFrame?, hstack], by simp⟩
      rw [← hstack]
      exact Thread.stack_reuse_of_nil hstack next
    | cons top below =>
      exact .inr (.inr (.inr ⟨next, top, below, rfl, rfl, Thread.stack_reuse_of_cons hstack next⟩))
  | start code =>
    rcases s.stack_startProcedure code with h | ⟨id, signature, _, _, h⟩
    · exact .inr (.inl ⟨code, rfl, h⟩)
    · exact .inl ⟨_, _, _, h, fun hwarp => by simp [hwarp], by simp⟩

end Scene

end BlockStage
