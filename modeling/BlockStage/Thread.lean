import BlockStage.Blocks

/-!
Threads: scripts in progress. A thread is a stack of entries, the top first; an entry is a block, or
a null marker that only advances the thread, with the frame it runs in. Parameters are bound on
frames, and the nearest frame that owns parameters scopes every look-up.
-/

namespace BlockStage

/-- Parameters bound by a call, by display name. -/
abbrev Parameters := Named Value

/-- How a block of a thread is being run. -/
structure Frame where
  /-- Whether a call has been dispatched, so that resuming the thread does not dispatch it again. -/
  executed : Bool := false
  parameters : Option Parameters := none
  warp : Bool := false
  /-- The block being evaluated, in interpreted mode. -/
  op : Option String := none
  /-- The target whose blocks run from here on up, if it is another one than below. -/
  target : Option String := none

namespace Frame

/-- The frame for the next block of the same sequence, which stays on the same target. -/
def reuse (f : Frame) (warp : Bool) : Frame := { warp, target := f.target }

def clearParameters (f : Frame) : Frame := { f with parameters := some ∅ }

/-- Binds a parameter; a frame without parameters gets its first ones. -/
def bind (f : Frame) (name : String) (v : Value) : Frame :=
  { f with parameters := some ((f.parameters.getD ∅).insert name v) }

end Frame

structure Entry where
  /-- `none` is the null marker. -/
  block : Option String
  frame : Frame := {}

inductive Status where
  | running
  /-- Parked until a result arrives. -/
  | waiting
  | yielding
  | yieldingTick
  | done
  deriving DecidableEq, Repr

/-- Where a thread keeps the block it is at: on its top frame or on top of its stack. -/
inductive Mode where
  | interpreted
  | compiled
  deriving DecidableEq, Repr

structure Thread where
  home : String
  topBlock : Option String
  status : Status := .running
  mode : Mode := .interpreted
  stack : List Entry := []

/-- How many entries below the top are searched for a recursive call. -/
def recursionWindow : Nat := 6

namespace Thread

def topFrame? (t : Thread) : Option Frame := t.stack.head?.map Entry.frame

/-- Changes the top frame, if there is one. -/
def modifyTop (t : Thread) (f : Frame → Frame) : Thread :=
  { t with stack := t.stack.modifyHead fun e => { e with frame := f e.frame } }

/-- Changes the outermost frame, if there is one. -/
def modifyOutermost (t : Thread) (f : Frame → Frame) : Thread :=
  { t with stack := t.stack.modify (t.stack.length - 1) fun e => { e with frame := f e.frame } }

/-- Pushes an entry, in warp mode if the one below is. -/
def push (t : Thread) (block : Option String) : Thread :=
  let warp := t.topFrame?.any Frame.warp
  { t with stack := { block, frame := { warp } } :: t.stack }

/-- A thread at its first block. -/
def start (home : String) (topBlock : Option String) (mode : Mode) : Thread :=
  push { home, topBlock, mode } topBlock

/-- The target whose blocks the top of the stack belongs to. -/
def currentTarget (t : Thread) : String := (t.stack.findSome? (·.frame.target)).getD t.home

/-- Pushes a block of a target; the frame says so if the target changes. -/
def pushOn (t : Thread) (block target : String) : Thread :=
  let pushed := t.push (some block)
  if target = t.currentTarget then pushed
  else pushed.modifyTop fun f => { f with target := some target }

def pop (t : Thread) : Thread := { t with stack := t.stack.tail }

/-- Puts the next block of a sequence in place of the top one. Warp mode is taken from below. -/
def reuse (t : Thread) (block : Option String) : Thread :=
  match t.stack with
  | [] => t.push block
  | top :: below =>
    let warp := below.head?.any (·.frame.warp)
    { t with stack := { block, frame := top.frame.reuse warp } :: below }

/-- The block on top of the stack, unless that is a null marker. -/
def topOfStack? (t : Thread) : Option String := t.stack.head?.bind Entry.block

/-- The block that the thread is executing. -/
def activeBlock? (t : Thread) : Option String :=
  match t.mode with
  | .interpreted => t.topFrame?.bind Frame.op
  | .compiled => t.topOfStack?

/-- The parameters of the nearest frame that owns any. -/
def scope? (t : Thread) : Option Parameters := t.stack.findSome? (·.frame.parameters)

/-- A parameter of the nearest call; calls further out are never asked. -/
def parameter? (t : Thread) (name : String) : Option Value := t.scope?.bind (·[name]?)

def parameters (t : Thread) : Parameters := t.scope?.getD ∅

/-- Whether one of the entries below the top, as far as the window reaches, calls `code`. -/
def isRecursiveCall (t : Thread) (code : String) (blocks : Blocks) : Bool :=
  (t.stack.tail.take recursionWindow).any fun e =>
    (e.block.bind blocks.block?).any fun b =>
      b.opcode == "procedures_call" && b.code? == some code

/-! ## What pushing and popping leave alone -/

@[simp] theorem stack_push (t : Thread) (block : Option String) :
    (t.push block).stack = { block, frame := { warp := t.topFrame?.any Frame.warp } } :: t.stack :=
  rfl

@[simp] theorem pop_push (t : Thread) (block : Option String) : (t.push block).pop = t := rfl

@[simp] theorem currentTarget_push (t : Thread) (block : Option String) :
    (t.push block).currentTarget = t.currentTarget := by
  simp [currentTarget, push]

@[simp] theorem scope?_push (t : Thread) (block : Option String) :
    (t.push block).scope? = t.scope? := by
  simp [scope?]

theorem pop_pushOn (t : Thread) (block target : String) : (t.pushOn block target).pop = t := by
  unfold pushOn
  split
  · rfl
  · simp [modifyTop, pop, push]

/-- A block that is pushed on a target runs against that target. -/
theorem currentTarget_pushOn (t : Thread) (block target : String) :
    (t.pushOn block target).currentTarget = target := by
  unfold pushOn
  split
  · next h => simp [h]
  · simp [modifyTop, currentTarget]

end Thread

end BlockStage
