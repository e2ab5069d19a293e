import BlockStage.Proofs.Actions
import BlockStage.Proofs.TargetMarks

/-!
Blocks and frames on two stacks. A thread has one stack of entries, each a block with its frame.
Here the two are stacks of their own, and every operation changes the one and the other. Nothing
holds a frame to its block any more; still, both kinds of stacks have the same runs.
-/

namespace BlockStage

/-- A thread whose blocks and frames are on two stacks, the top of each first. -/
structure Columns where
  home : String
  topBlock : Option String
  status : Status := .running
  mode : Mode := .interpreted
  blocks : List (Option String) := []
  frames : List Frame := []

/-- The blocks and the frames of the entries of a thread. -/
def Thread.columns (t : Thread) : Columns where
  home := t.home
  topBlock := t.topBlock
  status := t.status
  mode := t.mode
  blocks := t.stack.map Entry.block
  frames := t.stack.map Entry.frame

namespace Columns

/-- The thread of the entries that blocks and frames make up together. Look-ups see this one. -/
def thread (c : Columns) : Thread where
  home := c.home
  topBlock := c.topBlock
  status := c.status
  mode := c.mode
  stack := List.zipWith Entry.mk c.blocks c.frames

def modifyTop (c : Columns) (f : Frame → Frame) : Columns :=
  { c with frames := c.frames.modifyHead f }

def modifyOutermost (c : Columns) (f : Frame → Frame) : Columns :=
  { c with frames := c.frames.modify (c.frames.length - 1) f }

/-- A block goes on one stack, and on the other a frame, in warp mode if the one below is. -/
def push (c : Columns) (block : Option String) : Columns :=
  { c with
    blocks := block :: c.blocks
    frames := { warp := c.frames.head?.any Frame.warp } :: c.frames }

def start (home : String) (topBlock : Option String) (mode : Mode) : Columns :=
  push { home, topBlock, mode } topBlock

def currentTarget (c : Columns) : String := (c.frames.findSome? Frame.target).getD c.home

def pushOn (c : Columns) (block target : String) : Columns :=
  let pushed := c.push (some block)
  if target = c.currentTarget then pushed
  else pushed.modifyTop fun f => { f with target := some target }

def pushBranch (c : Columns) : Option (String × String) → Columns
  | some (block, target) => c.pushOn block target
  | none => c.push none

/-- Drops the last frame, and gives the last block, if there is one. -/
def pop (c : Columns) : Option (Option String) × Columns :=
  (c.blocks.head?, { c with blocks := c.blocks.tail, frames := c.frames.tail })

/-- It is the stack of blocks that says whether there is an entry to use again. -/
def reuse (c : Columns) (block : Option String) : Columns :=
  match c.blocks with
  | [] => c.push block
  | _ :: below =>
    let warp := c.frames.tail.head?.any Frame.warp
    { c with blocks := block :: below, frames := c.frames.modifyHead (·.reuse warp) }

def enterBody (c : Columns) (definition : String) (warp recursive : Bool) : Columns :=
  let pushed := c.push (some definition)
  if warp then pushed.modifyTop fun f => { f with warp := true }
  else if recursive then { pushed with status := .yielding }
  else pushed

def target? (p : Project) (c : Columns) : Option Target := p.target? c.currentTarget

def startProcedure (p : Project) (c : Columns) (code : String) : Columns :=
  match c.target? p with
  | none => c
  | some target =>
    match target.blocks.definition? code with
    | none => c
    | some definition =>
      let warp := (target.blocks.signature? code).any Signature.warp
      c.enterBody definition warp (c.thread.isRecursiveCall code target.blocks)

def move (p : Project) (c : Columns) : Move → Columns
  | .push block => c.push block
  | .pushOn block target => c.pushOn block target
  | .pushBranch branch => c.pushBranch branch
  | .pop => c.pop.2
  | .reuse block => c.reuse block
  | .start code => c.startProcedure p code

/-- The columns in which the parameters of a call are bound, with the code of the procedure. -/
def bind? (p : Project) (args : Arguments) (c : Columns) : Option (String × Columns) := do
  let frame ← c.frames.head?
  if frame.executed then none
  else do
    let code ← args.code?
    let signature ← (c.target? p).bind (·.blocks.signature? code)
    return (code, c.modifyTop (Procedure.bindAll args signature))

def markExecuted (c : Columns) : Columns := c.modifyTop fun f => { f with executed := true }

/-- What a call does when its addon returns. -/
def park (c : Columns) : Columns := if c.status = .waiting then c.markExecuted else c

def set (p : Project) (args : Arguments) (c : Columns) : Columns :=
  match Procedure.setName? ⟨p, c.thread⟩ with
  | none => c
  | some name => c.modifyOutermost (·.bind name ((args.values["VALUE"]?).getD .zero))

def reportCommand (p : Project) (args : Arguments) (c : Columns) : Columns :=
  match (args.values["VALUE"]?).bind fun name => c.thread.parameter? name.display with
  | none => c
  | some value =>
    match Procedure.commandBranch? ⟨p, c.thread⟩ value with
    | none => c
    | some branch => c.pushBranch branch

/-- What the two stacks are put through in a project, that may change on the way. A call that binds
its parameters goes on with the body, or with an addon, which may do all that is done here. -/
inductive Reaches : Project → Columns → Project → Columns → Prop
  | refl (p : Project) (c : Columns) : Reaches p c p c
  | move {p q : Project} {c d : Columns} (m : Move) (h : Reaches p c q d) :
      Reaches p c q (d.move q m)
  | status {p q : Project} {c d : Columns} (status : Status) (h : Reaches p c q d) :
      Reaches p c q { d with status }
  | evaluate {p q : Project} {c d : Columns} (op : Option String) (h : Reaches p c q d) :
      Reaches p c q (d.modifyTop fun f => { f with op })
  | set {p q : Project} {c d : Columns} (args : Arguments) (h : Reaches p c q d) :
      Reaches p c q (d.set q args)
  | reportCommand {p q : Project} {c d : Columns} (args : Arguments) (h : Reaches p c q d) :
      Reaches p c q (d.reportCommand q args)
  | body {p q : Project} {c d bound : Columns} {code : String} {args : Arguments}
      (h : Reaches p c q d) (hbind : d.bind? q args = some (code, bound)) :
      Reaches p c q (bound.markExecuted.startProcedure q code)
  | addon {p q r : Project} {c d bound left : Columns} {code : String} {args : Arguments}
      (h : Reaches p c q d) (hbind : d.bind? q args = some (code, bound))
      (hrun : Reaches q bound r left) :
      Reaches p c r left.park
  | elsewhere {p q : Project} {c d : Columns} (r : Project) (h : Reaches p c q d) :
      Reaches p c r d

end Columns

/-! ## The same operations -/

namespace Thread

theorem thread_columns (t : Thread) : t.columns.thread = t := by
  have hentries : List.zipWith Entry.mk (t.stack.map Entry.block) (t.stack.map Entry.frame) =
      t.stack := by
    simp [List.zipWith_map]
  simp only [Columns.thread, columns, hentries]

theorem columns_modifyTop (t : Thread) (f : Frame → Frame) :
    (t.modifyTop f).columns = t.columns.modifyTop f := by
  cases hstack : t.stack <;> simp [modifyTop, columns, Columns.modifyTop, hstack]

theorem columns_modifyOutermost (t : Thread) (f : Frame → Frame) :
    (t.modifyOutermost f).columns = t.columns.modifyOutermost f := by
  rcases t.eq_nil_or_outermost with hstack | ⟨inner, outermost, hstack⟩
  · simp [modifyOutermost, columns, Columns.modifyOutermost, hstack]
  · rw [modifyOutermost_of_append hstack]
    have hframes : (inner.map Entry.frame ++ [outermost.frame]).modify inner.length f =
        inner.map Entry.frame ++ [f outermost.frame] := by
      rw [← inner.length_map Entry.frame]
      exact List.modifyTailIdx_add _ 0 _ _
    simp [columns, Columns.modifyOutermost, hstack, hframes]

theorem columns_push (t : Thread) (block : Option String) :
    (t.push block).columns = t.columns.push block := by
  simp [push, columns, Columns.push, topFrame?]

theorem currentTarget_columns (t : Thread) : t.columns.currentTarget = t.currentTarget := by
  simp [columns, Columns.currentTarget, currentTarget, List.findSome?_map, Function.comp_def]

theorem columns_pushOn (t : Thread) (block target : String) :
    (t.pushOn block target).columns = t.columns.pushOn block target := by
  simp only [pushOn, Columns.pushOn, currentTarget_columns]
  split
  · exact t.columns_push (some block)
  · rw [columns_modifyTop, columns_push]

theorem columns_pushBranch (t : Thread) (branch : Option (String × String)) :
    (t.pushBranch branch).columns = t.columns.pushBranch branch := by
  cases branch with
  | none => exact t.columns_push none
  | some branch => exact t.columns_pushOn branch.1 branch.2

theorem columns_pop (t : Thread) : t.pop.columns = t.columns.pop.2 := by
  simp [pop, columns, Columns.pop, List.map_tail]

theorem columns_reuse (t : Thread) (block : Option String) :
    (t.reuse block).columns = t.columns.reuse block := by
  cases hstack : t.stack with
  | nil =>
    have hreuse : t.reuse block = t.push block := by simp [reuse, hstack]
    rw [hreuse, columns_push]
    simp [Columns.reuse, columns, hstack]
  | cons top below => simp [reuse, columns, Columns.reuse, hstack, Option.any_map]

theorem columns_enterBody (t : Thread) (definition : String) (warp recursive : Bool) :
    (Scene.enterBody t definition warp recursive).columns =
      t.columns.enterBody definition warp recursive := by
  simp only [Scene.enterBody, Columns.enterBody, ← columns_push]
  split
  · exact columns_modifyTop _ _
  · split <;> rfl

end Thread

namespace Scene

theorem target?_columns (s : Scene) : s.thread.columns.target? s.project = s.target? := by
  rw [Columns.target?, Thread.currentTarget_columns, target?]

theorem columns_startProcedure (s : Scene) (code : String) :
    (s.startProcedure code).thread.columns = s.thread.columns.startProcedure s.project code := by
  simp only [startProcedure, Columns.startProcedure, target?_columns, Thread.thread_columns]
  cases s.target? with
  | none => rfl
  | some target =>
    cases hdef : target.blocks.definition? code with
    | none => simp [hdef]
    | some definition =>
      simp only [hdef, mapThread]
      exact Thread.columns_enterBody _ _ _ _

theorem columns_move (s : Scene) (m : Move) :
    (s.move m).thread.columns = s.thread.columns.move s.project m := by
  cases m with
  | push block => exact s.thread.columns_push block
  | pushOn block target => exact s.thread.columns_pushOn block target
  | pushBranch branch => exact s.thread.columns_pushBranch branch
  | pop => exact s.thread.columns_pop
  | reuse block => exact s.thread.columns_reuse block
  | start code => exact s.columns_startProcedure code

end Scene

namespace Procedure

theorem columns_set (args : Arguments) (s : Scene) :
    (set args s).thread.columns = s.thread.columns.set s.project args := by
  simp only [set, Columns.set, Thread.thread_columns]
  cases setName? s with
  | none => rfl
  | some name => exact s.thread.columns_modifyOutermost _

theorem columns_reportCommand (args : Arguments) (s : Scene) :
    (reportCommand args s).thread.columns = s.thread.columns.reportCommand s.project args := by
  simp only [reportCommand, Columns.reportCommand, Thread.thread_columns]
  cases (args.values["VALUE"]?).bind fun name => s.thread.parameter? name.display with
  | none => rfl
  | some value =>
    cases hbranch : commandBranch? s value with
    | none => simp [hbranch]
    | some branch =>
      simp only [hbranch]
      exact s.thread.columns_pushBranch branch

theorem columns_markExecuted (s : Scene) :
    (markExecuted s).thread.columns = s.thread.columns.markExecuted :=
  s.thread.columns_modifyTop _

theorem bind?_columns (args : Arguments) (s : Scene) :
    s.thread.columns.bind? s.project args =
      (bind? args s).map fun found => (found.1, found.2.thread.columns) := by
  have htop : s.thread.columns.frames.head? = s.thread.topFrame? := by
    simp [Thread.columns, Thread.topFrame?]
  simp only [bind?, Columns.bind?, htop, Scene.target?_columns]
  cases s.thread.topFrame? with
  | none => rfl
  | some frame =>
    cases hexecuted : frame.executed with
    | true => simp [hexecuted]
    | false =>
      cases args.code? with
      | none => simp
      | some code =>
        have hsame : s.target?.bind (·.blocks.signature? code) = s.signature? code := rfl
        cases hsig : s.signature? code with
        | none => simp [hsame, hsig]
        | some signature =>
          have hbound := s.thread.columns_modifyTop (bindAll args signature)
          simp [hexecuted, hsame, hsig, Scene.mapThread, hbound]

end Procedure

/-- What a scene is put through: actions of the host, and changes of the project. An addon that
takes a call over may do all that is done here. -/
inductive Scene.Reaches : Scene → Scene → Prop
  | refl (s : Scene) : Reaches s s
  | act {s t : Scene} {σ : Type} (addons : Named (Addon σ)) (host : σ) (a : Action)
      (h : Reaches s t)
      (haddon : ∀ args code bound addon, a = .block .call args →
        Procedure.bind? args t = some (code, bound) → addons[code]? = some addon →
          Reaches bound (addon bound.thread.parameters (host, bound)).2.2) :
      Reaches s (act addons (host, t) a).2
  | elsewhere {s t : Scene} (project : Project) (h : Reaches s t) : Reaches s { t with project }

namespace Procedure

theorem project_set (args : Arguments) (s : Scene) : (set args s).project = s.project := by
  cases hname : setName? s <;> simp [set, hname, Scene.mapThread]

theorem project_reportCommand (args : Arguments) (s : Scene) :
    (reportCommand args s).project = s.project := by
  rcases reportCommand_eq args s with hsame | ⟨branch, hbranch⟩
  · rw [hsame]
  · rw [hbranch, Scene.project_move]

theorem project_of_bind? {args : Arguments} {s bound : Scene} {code : String}
    (hbind : bind? args s = some (code, bound)) : bound.project = s.project := by
  obtain ⟨_, _, _, _, _, _, _, rfl⟩ := (bind?_eq_some_iff args s code bound).mp hbind
  rfl

section

variable {σ : Type} {addons : Named (Addon σ)} {args : Arguments} {s bound : Scene} {code : String}

theorem columns_call_body (hbind : bind? args s = some (code, bound))
    (hfree : addons[code]? = none) (host : σ) :
    (call addons args host s).2.2.project = s.project ∧
      (call addons args host s).2.2.thread.columns =
        bound.thread.columns.markExecuted.startProcedure s.project code := by
  have hcall : (call addons args host s).2.2 = (markExecuted bound).move (.start code) := by
    simp [call, hbind, hfree, Scene.move]
  have hmarked : (markExecuted bound).project = bound.project := rfl
  rw [hcall, Scene.project_move, Scene.columns_move, columns_markExecuted, hmarked,
    project_of_bind? hbind]
  exact ⟨rfl, rfl⟩

theorem columns_call_addon {host : σ} {addon : Addon σ} {left : Scene}
    (hbind : bind? args s = some (code, bound)) (hhook : addons[code]? = some addon)
    (hleft : (addon bound.thread.parameters (host, bound)).2.2 = left) :
    (call addons args host s).2.2.project = left.project ∧
      (call addons args host s).2.2.thread.columns = left.thread.columns.park := by
  have hcall : (call addons args host s).2.2 =
      if left.thread.status = .waiting then markExecuted left else left := by
    simp [call, hbind, hhook, hleft]
  have hstatus : left.thread.columns.status = left.thread.status := rfl
  rw [hcall, Columns.park, hstatus]
  split
  · exact ⟨rfl, columns_markExecuted left⟩
  · exact ⟨rfl, rfl⟩

/-- A call is one on the two stacks if the addon that takes it over is. -/
theorem columns_call {host : σ} {p : Project} {c : Columns}
    (h : Columns.Reaches p c s.project s.thread.columns)
    (haddon : ∀ code bound addon, bind? args s = some (code, bound) → addons[code]? = some addon →
      Columns.Reaches bound.project bound.thread.columns
        (addon bound.thread.parameters (host, bound)).2.2.project
        (addon bound.thread.parameters (host, bound)).2.2.thread.columns) :
    Columns.Reaches p c (call addons args host s).2.2.project
      (call addons args host s).2.2.thread.columns := by
  cases hbind : bind? args s with
  | none => simpa [call, hbind] using h
  | some found =>
    obtain ⟨code, bound⟩ := found
    have hcolumns : s.thread.columns.bind? s.project args = some (code, bound.thread.columns) := by
      rw [bind?_columns, hbind, Option.map_some]
    cases hhook : addons[code]? with
    | none =>
      obtain ⟨hproject, hthread⟩ := columns_call_body hbind hhook host
      rw [hproject, hthread]
      exact .body h hcolumns
    | some addon =>
      obtain ⟨hproject, hthread⟩ := columns_call_addon hbind hhook rfl
      have hrun := haddon code bound addon hbind hhook
      rw [project_of_bind? hbind] at hrun
      rw [hproject, hthread]
      exact .addon h hcolumns hrun

end

end Procedure

/-- **The same runs.** -/
theorem Scene.Reaches.columns {s t : Scene} (h : s.Reaches t) :
    Columns.Reaches s.project s.thread.columns t.project t.thread.columns := by
  induction h with
  | refl s => exact .refl _ _
  | elsewhere project _ ih => exact .elsewhere project ih
  | @act s t σ addons host a _ haddon ih ihaddon =>
    cases a with
    | move m =>
      rw [BlockStage.act, Scene.columns_move, Scene.project_move]
      exact .move m ih
    | status status => exact .status status ih
    | evaluate op =>
      rw [BlockStage.act, Scene.mapThread, Thread.columns_modifyTop]
      exact .evaluate op ih
    | block opcode args =>
      cases opcode with
      | definition | reportStringNumber | reportBoolean => exact ih
      | set =>
        rw [BlockStage.act, Procedure.run, Procedure.columns_set, Procedure.project_set]
        exact .set args ih
      | reportCommand =>
        rw [BlockStage.act, Procedure.run, Procedure.columns_reportCommand,
          Procedure.project_reportCommand]
        exact .reportCommand args ih
      | call =>
        exact Procedure.columns_call ih fun code bound addon hbind hhook =>
          ihaddon args code bound addon rfl hbind hhook

/-- An action without addons. -/
theorem Scene.Reaches.step {s t : Scene} (h : s.Reaches t) (a : Action) :
    s.Reaches (BlockStage.act (∅ : Named (Addon Unit)) ((), t) a).2 :=
  .act ∅ () a h (by simp)

/-- What the scene of a call can reach, some addon leaves. -/
theorem Scene.Reaches.addon {s t bound left : Scene} {args : Arguments} {code : String}
    (h : s.Reaches t) (hbind : Procedure.bind? args t = some (code, bound))
    (hrun : bound.Reaches left) :
    ∃ final : Scene, final.project = left.project ∧
      final.thread.columns = left.thread.columns.park ∧ s.Reaches final := by
  let leaves : Addon Unit := fun _ _ => (none, (), left)
  have hhook : (Std.ExtTreeMap.ofList [(code, leaves)] : Named (Addon Unit))[code]? =
      some leaves := by simp
  have hleft : (leaves bound.thread.parameters ((), bound)).2.2 = left := rfl
  obtain ⟨hproject, hthread⟩ := Procedure.columns_call_addon hbind hhook hleft
  refine ⟨_, hproject, hthread, h.act _ () (.block .call args) ?_⟩
  -- the call binds and dispatches in one way only
  rintro _ code' bound' addon' ⟨⟩ hbind' hhook'
  rw [hbind, Option.some.injEq] at hbind'
  cases hbind'
  rw [hhook, Option.some.injEq] at hhook'
  subst hhook'
  exact hrun

/-- Two stacks with the blocks and the frames of a thread do what that thread could do. -/
theorem Columns.Reaches.scene {p q : Project} {c d : Columns} (h : Columns.Reaches p c q d) :
    ∀ t : Thread, t.columns = c → ∃ s : Scene, s.project = q ∧ s.thread.columns = d ∧
      Scene.Reaches ⟨p, t⟩ s := by
  induction h with
  | refl p c =>
    intro t ht
    exact ⟨⟨p, t⟩, rfl, ht, .refl _⟩
  | move m _ ih =>
    intro t ht
    obtain ⟨s, rfl, rfl, hs⟩ := ih t ht
    exact ⟨_, s.project_move m, s.columns_move m, hs.step (.move m)⟩
  | status status _ ih =>
    intro t ht
    obtain ⟨s, rfl, rfl, hs⟩ := ih t ht
    exact ⟨s.mapThread fun t => { t with status }, rfl, rfl, hs.step (.status status)⟩
  | evaluate op _ ih =>
    intro t ht
    obtain ⟨s, rfl, rfl, hs⟩ := ih t ht
    exact ⟨s.mapThread (·.modifyTop fun f => { f with op }), rfl, s.thread.columns_modifyTop _,
      hs.step (.evaluate op)⟩
  | set args _ ih =>
    intro t ht
    obtain ⟨s, rfl, rfl, hs⟩ := ih t ht
    exact ⟨_, Procedure.project_set args s, Procedure.columns_set args s,
      hs.step (.block .set args)⟩
  | reportCommand args _ ih =>
    intro t ht
    obtain ⟨s, rfl, rfl, hs⟩ := ih t ht
    exact ⟨_, Procedure.project_reportCommand args s, Procedure.columns_reportCommand args s,
      hs.step (.block .reportCommand args)⟩
  | elsewhere r _ ih =>
    intro t ht
    obtain ⟨s, _, rfl, hs⟩ := ih t ht
    exact ⟨{ s with project := r }, rfl, rfl, .elsewhere r hs⟩
  | @body p q c d bound code args _ hbind ih =>
    intro t ht
    obtain ⟨s, rfl, rfl, hs⟩ := ih t ht
    rw [Procedure.bind?_columns] at hbind
    obtain ⟨⟨code, bound⟩, hfound, hpair⟩ := Option.map_eq_some_iff.mp hbind
    cases hpair
    have hfree : (∅ : Named (Addon Unit))[code]? = none := by simp
    obtain ⟨hproject, hthread⟩ := Procedure.columns_call_body hfound hfree ()
    exact ⟨_, hproject, hthread, hs.step (.block .call args)⟩
  | @addon p q r c d bound left code args _ hbind _ ih ihrun =>
    intro t ht
    obtain ⟨s, rfl, rfl, hs⟩ := ih t ht
    rw [Procedure.bind?_columns] at hbind
    obtain ⟨⟨code, bound⟩, hfound, hpair⟩ := Option.map_eq_some_iff.mp hbind
    cases hpair
    obtain ⟨left, rfl, rfl, hrun⟩ := ihrun bound.thread rfl
    rw [← Procedure.project_of_bind? hfound] at hrun
    exact hs.addon hfound hrun

end BlockStage
