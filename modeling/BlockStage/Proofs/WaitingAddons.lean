import BlockStage.Proofs.Visits

/-!
Calls that an addon leaves waiting. The mark that keeps such a call from being dispatched again goes
to the frame that is on top when the addon returns. `parksCall_iff` says when that is the frame of
the call: when the addon leaves nothing above it.
-/

namespace BlockStage

/-! ## Addons that act on their thread -/

/-- The action calls a procedure. -/
def Action.IsCall : Action → Prop
  | block .call _ => True
  | _ => False

/-- The scene that actions lead to when no procedure has an addon. -/
def Scene.undergo (s : Scene) (actions : List Action) : Scene :=
  (play (∅ : Named (Addon Unit)) ((), s) actions).2

/-- An addon that runs actions on the scene of its call. Which ones may depend on the parameters, on
its own state and on that scene. -/
def scripted (script : Parameters → σ × Scene → Option Value × σ × List Action) : Addon σ :=
  fun parameters (host, s) =>
    let (result, host, actions) := script parameters (host, s)
    (result, host, s.undergo actions)

/-! ## The marks on a stack -/

namespace Thread

/-- Which frames are executed, the outermost first. -/
def marks (t : Thread) : List Bool := (t.stack.map (·.frame.executed)).reverse

theorem length_marks (t : Thread) : t.marks.length = t.stack.length := by
  simp [marks]

theorem marks_of_cons {t : Thread} {top : Entry} {below : List Entry}
    (hstack : t.stack = top :: below) :
    t.marks = (below.map (·.frame.executed)).reverse ++ [top.frame.executed] := by
  rw [marks, hstack, List.map_cons, List.reverse_cons]

theorem marks_modifyTop (t : Thread) (f : Frame → Frame)
    (hf : ∀ frame, (f frame).executed = frame.executed) : (t.modifyTop f).marks = t.marks := by
  cases hstack : t.stack <;> simp [modifyTop, marks, hstack, hf]

theorem marks_modifyOutermost (t : Thread) (f : Frame → Frame)
    (hf : ∀ frame, (f frame).executed = frame.executed) :
    (t.modifyOutermost f).marks = t.marks := by
  rcases t.eq_nil_or_outermost with hstack | ⟨inner, outermost, hstack⟩
  · simp [modifyOutermost, marks, hstack]
  · rw [modifyOutermost_of_append hstack]
    simp [marks, hstack, hf]

end Thread

/-- Marking the top changes the last mark. -/
theorem Procedure.marks_markExecuted (s : Scene) :
    (markExecuted s).thread.marks = s.thread.marks.set (s.thread.stack.length - 1) true := by
  cases hstack : s.thread.stack with
  | nil => simp [markExecuted, Scene.mapThread, Thread.modifyTop, Thread.marks, hstack]
  | cons top below =>
    have hmarked : (markExecuted s).thread.stack =
        { top with frame := { top.frame with executed := true } } :: below := by
      simp [markExecuted, Scene.mapThread, Thread.modifyTop, hstack]
    rw [Thread.marks_of_cons hmarked, Thread.marks_of_cons hstack]
    simp

/-! ## What an addon leaves above its call -/

/-- The stack holds frames with the marks of `base`, and above them only frames that are not
executed. -/
def Thread.FreshAbove (t : Thread) (base : List Bool) : Prop :=
  ∃ above, t.marks = base ++ List.replicate above false

namespace Scene

variable {s : Scene} {base : List Bool} {depth : Nat}

theorem freshAbove_of_cons (h : s.thread.FreshAbove base) {after : Scene} {e : Entry}
    (hstack : after.thread.stack = e :: s.thread.stack) (he : e.frame.executed = false) :
    after.thread.FreshAbove base := by
  obtain ⟨above, hmarks⟩ := h
  refine ⟨above + 1, ?_⟩
  rw [Thread.marks_of_cons hstack, he, List.replicate_succ', ← List.append_assoc, ← hmarks]
  rfl

/-- Dropping the top of a stack that is higher than `base` drops a frame that is not executed. -/
theorem freshAbove_of_tail (h : s.thread.FreshAbove base) {after : Scene}
    (hstack : after.thread.stack = s.thread.stack.tail)
    (hheight : s.thread.stack.length ≠ base.length) : after.thread.FreshAbove base := by
  obtain ⟨above, hmarks⟩ := h
  have hlength : s.thread.stack.length = base.length + above := by
    rw [← s.thread.length_marks, hmarks, List.length_append, List.length_replicate]
  obtain ⟨above, rfl⟩ : ∃ n, above = n + 1 := ⟨above - 1, by omega⟩
  cases hs : s.thread.stack with
  | nil =>
    rw [hs, List.length_nil] at hlength
    omega
  | cons top below =>
    rw [Thread.marks_of_cons hs, List.replicate_succ', ← List.append_assoc] at hmarks
    refine ⟨above, ?_⟩
    rw [Thread.marks, hstack, hs, List.tail_cons]
    exact (List.append_inj' hmarks rfl).1

/-- A move that keeps the entries of `base` puts on, drops and replaces only entries above them. -/
theorem freshAbove_move (h : s.thread.FreshAbove base) (hbase : base.length = depth + 1) (m : Move)
    (hkept : (Action.move m).removes depth s = false) : (s.move m).thread.FreshAbove base := by
  rcases s.stack_move_cases m with ⟨_, _, _, hstack, _, _⟩ | ⟨_, _, hstack⟩ | ⟨rfl, hstack⟩ |
    ⟨next, top, below, rfl, hs, hstack⟩
  · exact freshAbove_of_cons h hstack rfl
  · rwa [Thread.FreshAbove, Thread.marks, hstack]
  · exact freshAbove_of_tail h hstack (by simpa [Action.removes, hbase] using hkept)
  · have hpopped : (s.move .pop).thread.FreshAbove base :=
      freshAbove_of_tail h rfl (by simpa [Action.removes, hbase] using hkept)
    have hbelow : (s.move .pop).thread.stack = below := congrArg List.tail hs
    exact freshAbove_of_cons hpopped (hbelow ▸ hstack) rfl

/-- **One action.** -/
theorem freshAbove_act (h : s.thread.FreshAbove base) (hbase : base.length = depth + 1)
    {a : Action} (hcall : ¬ a.IsCall) (hkept : a.removes depth s = false) {σ : Type}
    (addons : Named (Addon σ)) (host : σ) : (act addons (host, s) a).2.thread.FreshAbove base := by
  have hsame {after : Scene} (hmarks : after.thread.marks = s.thread.marks) :
      after.thread.FreshAbove base := by
    obtain ⟨above, hs⟩ := h
    exact ⟨above, hmarks.trans hs⟩
  cases a with
  | move m => exact freshAbove_move h hbase m hkept
  | status status => exact h
  | evaluate op => exact hsame (s.thread.marks_modifyTop _ fun _ => rfl)
  | block opcode args =>
    cases opcode with
    | definition | reportStringNumber | reportBoolean => exact h
    | call => exact absurd trivial hcall
    | set =>
      refine hsame ?_
      cases hname : Procedure.setName? s with
      | none => simp [act, Procedure.run, Procedure.set, hname]
      | some name =>
        simp only [act, Procedure.run, Procedure.set, hname, mapThread]
        exact s.thread.marks_modifyOutermost _ fun _ => rfl
    | reportCommand =>
      rcases Procedure.reportCommand_eq args s with hstays | ⟨branch, hbranch⟩
      · exact hsame (congrArg (·.thread.marks) hstays)
      · rw [act, Procedure.run, hbranch]
        exact freshAbove_move h hbase (.pushBranch branch) rfl

/-- **One run.** -/
theorem freshAbove_undergo (h : s.thread.FreshAbove base) (hbase : base.length = depth + 1)
    (actions : List Action) (hcalls : ∀ a ∈ actions, ¬ a.IsCall)
    (hkept : Keeps (∅ : Named (Addon Unit)) depth ((), s) actions) :
    (s.undergo actions).thread.FreshAbove base := by
  induction actions generalizing s with
  | nil => exact h
  | cons a actions ih =>
    have hstep := freshAbove_act h hbase (hcalls a (by simp)) hkept.1 (∅ : Named (Addon Unit)) ()
    exact ih hstep (fun b hb => hcalls b (by simp [hb])) hkept.2

end Scene

/-! ## The mark of a waiting call -/

/-- The law of waiting calls, for a call by the entry at a depth that an addon has left waiting. Of
all marks the call changes that of its own frame, and no other; and whenever the stack is back at
the entry, a call there does nothing. -/
structure ParksCall (depth : Nat) (left final : Scene) : Prop where
  own : final.thread.marks[depth]? = some true
  others (d : Nat) : d ≠ depth → final.thread.marks[d]? = left.thread.marks[d]?
  once {τ ρ : Type} (addons : Named (Addon τ)) (host : τ) (rest : List Action) (back : Scene) :
    (∀ a ∈ rest, a.Unhooked addons) → Keeps addons depth (host, final) rest →
    (play addons (host, final) rest).2 = back → back.thread.stack.length = depth + 1 →
    ∀ (hooks : Named (Addon ρ)) (args : Arguments) (guest : ρ),
      Procedure.call hooks args guest back = (none, guest, back)

/-- Whenever a run that keeps an executed entry is back at it, a call there does nothing. -/
theorem call_inert_of_executed {σ ρ : Type} {addons : Named (Addon σ)} {p : σ × Scene} {depth : Nat}
    {above : List Entry} {e : Entry} (h : p.2.thread.HasAt depth above e)
    (hexecuted : e.frame.executed = true) {actions : List Action}
    (hfree : ∀ a ∈ actions, a.Unhooked addons) (hkept : Keeps addons depth p actions)
    (hback : (play addons p actions).2.thread.stack.length = depth + 1)
    (hooks : Named (Addon ρ)) (args : Arguments) (guest : ρ) :
    Procedure.call hooks args guest (play addons p actions).2 =
      (none, guest, (play addons p actions).2) := by
  obtain ⟨above, after, hat, hmark, _⟩ := play_carries h actions hfree hkept
  have hnothing : above = [] := by
    have hlength := hat.length
    exact List.length_eq_zero_iff.mp (by omega)
  subst hnothing
  obtain ⟨below, hstack, _⟩ := hat
  have hstill : after.frame.executed = true := by
    rw [hexecuted, Bool.toNat_true] at hmark
    have hbounded := Bool.toNat_le after.frame.executed
    exact Bool.toNat_eq_one.mp (by omega)
  exact Procedure.call_inert hstack (.inl hstill) hooks guest

/-- The mark on top belongs to the call if the addon leaves nothing above it. -/
theorem parksCall_markExecuted {left : Scene} {depth : Nat}
    (hheight : left.thread.stack.length = depth + 1) :
    ParksCall depth left (Procedure.markExecuted left) := by
  have hmarks := Procedure.marks_markExecuted left
  rw [hheight, Nat.add_sub_cancel] at hmarks
  have hbound : depth < left.thread.marks.length := by
    rw [Thread.length_marks]
    omega
  refine ⟨by simp [hmarks, hbound], ?_, ?_⟩
  · intro d hd
    rw [hmarks, List.getElem?_set_ne (Ne.symm hd)]
  · rintro τ ρ addons host rest _ hfree hkept rfl hback hooks args guest
    cases hstack : left.thread.stack with
    | nil => simp [hstack] at hheight
    | cons top below =>
      have hat : (Procedure.markExecuted left).thread.HasAt depth []
          { top with frame := { top.frame with executed := true } } := by
        refine ⟨below, ?_, by simpa [hstack] using hheight⟩
        simp [Procedure.markExecuted, Scene.mapThread, Thread.modifyTop, hstack]
      exact call_inert_of_executed hat rfl hfree hkept hback hooks args guest

namespace Procedure

/-- Binding parameters leaves the marks as they are, and the top is not executed. -/
theorem freshAbove_of_bind? {args : Arguments} {s bound : Scene} {code : String} {depth : Nat}
    (hbind : bind? args s = some (code, bound)) (hdepth : s.thread.stack.length = depth + 1) :
    ∃ beneath, beneath.length = depth ∧ bound.thread.marks = beneath ++ [false] := by
  obtain ⟨entry, below, signature, hstack, hfresh, _, _, rfl⟩ :=
    (bind?_eq_some_iff args s code bound).mp hbind
  refine ⟨(below.map (·.frame.executed)).reverse, by simpa [hstack] using hdepth, ?_⟩
  have hmark : (bindAll args signature entry.frame).executed = false := by
    rw [bindAll_eq]
    exact hfresh
  rw [Thread.marks_of_cons rfl, hmark]

/-- **The mark of a waiting call.** An addon takes a call over, runs actions that keep the entry of
the call, and leaves the thread waiting. Then the call marks the frame on top. That keeps the law of
waiting calls if and only if the addon leaves nothing above the entry. -/
theorem parksCall_iff {σ : Type} (addons : Named (Addon σ)) (args : Arguments) (host host' : σ)
    (s bound left : Scene) (code : String)
    (script : Parameters → σ × Scene → Option Value × σ × List Action) (result : Option Value)
    (actions : List Action) (depth : Nat) (hbind : bind? args s = some (code, bound))
    (hdepth : s.thread.stack.length = depth + 1) (hhook : addons[code]? = some (scripted script))
    (hscript : script bound.thread.parameters (host, bound) = (result, host', actions))
    (hcalls : ∀ a ∈ actions, ¬ a.IsCall)
    (hkept : Keeps (∅ : Named (Addon Unit)) depth ((), bound) actions)
    (hleft : bound.undergo actions = left) (hwaiting : left.thread.status = .waiting) :
    ∃ final, call addons args host s = (result, host', final) ∧
      final.thread.marks = left.thread.marks.set (left.thread.stack.length - 1) true ∧
      (ParksCall depth left final ↔ left.thread.stack.length = depth + 1) := by
  have hcall : call addons args host s = (result, host', markExecuted left) := by
    simp [call, hbind, hhook, scripted, hscript, hleft, hwaiting]
  refine ⟨markExecuted left, hcall, marks_markExecuted left, ?_, parksCall_markExecuted⟩
  intro hparks
  obtain ⟨beneath, hbeneath, hbound⟩ := freshAbove_of_bind? hbind hdepth
  obtain ⟨above, hmarks⟩ : left.thread.FreshAbove (beneath ++ [false]) := by
    rw [← hleft]
    exact Scene.freshAbove_undergo ⟨0, by simpa using hbound⟩ (by simp [hbeneath]) actions hcalls
      hkept
  have hheight : left.thread.stack.length = depth + 1 + above := by
    rw [← Thread.length_marks, hmarks, List.length_append, List.length_append, hbeneath,
      List.length_replicate, List.length_singleton]
  rcases Nat.eq_zero_or_pos above with rfl | habove
  · exact hheight
  · -- the entry's own mark stays as it was
    have hown := hparks.own
    rw [marks_markExecuted, List.getElem?_set_ne (by omega), hmarks, List.append_assoc,
      List.getElem?_append_right (by omega), hbeneath, Nat.sub_self] at hown
    simp at hown

/-- A call of a procedure without parameters, on an otherwise empty stack. -/
def sleepScene : Scene :=
  soloScene (.ofList [("def", hatOf "proto"), ("proto", prototypeOf "sleep" "[]" "[]" false)])
    [{ block := some "call" }]

def sleepCall : Arguments := { mutation := some { code := some "sleep" } }

def countRuns (actions : List Action) (_ : Parameters) (p : Nat × Scene) :
    Option Value × Nat × List Action :=
  (none, p.1 + 1, actions)

/-- An addon in place of that procedure that counts its runs. -/
def sleepAddon (actions : List Action) : Named (Addon Nat) :=
  .ofList [("sleep", scripted (countRuns actions))]

/-- It enters the body that it stands for and leaves it again. -/
def looksInside : List Action :=
  [.move (.push none), .move (.start "sleep"), .move (.reuse (some "later")), .status .waiting,
    .move .pop, .move .pop]

theorem parksCall_iff_sleepScene :
    ∃ bound left final, bind? sleepCall sleepScene = some ("sleep", bound) ∧
      bound.undergo looksInside = left ∧ left.thread.status = .waiting ∧
      call (sleepAddon looksInside) sleepCall 0 sleepScene = (none, 1, final) ∧
      ParksCall 0 left final := by
  have hrun : (bind? sleepCall sleepScene).any (fun (code, bound) =>
      code = "sleep" ∧ Keeps (∅ : Named (Addon Unit)) 0 ((), bound) looksInside ∧
        (bound.undergo looksInside).thread.status = .waiting ∧
        (bound.undergo looksInside).thread.stack.length = 1) = true := by decide +kernel
  obtain ⟨⟨code, bound⟩, hbind, hrun⟩ := (Option.any_eq_true _ _).mp hrun
  obtain ⟨rfl, hkept, hwaiting, hheight⟩ := of_decide_eq_true hrun
  obtain ⟨final, hcall, _, hparks⟩ :=
    parksCall_iff (sleepAddon looksInside) sleepCall 0 1 sleepScene bound _ "sleep"
      (countRuns looksInside) none looksInside 0 hbind rfl (by simp [sleepAddon]) rfl
      (by simp [looksInside, Action.IsCall]) hkept rfl hwaiting
  exact ⟨bound, _, final, hbind, rfl, hwaiting, hcall, hparks.mpr hheight⟩

/-- It waits with an entry above the call. -/
def pushesAndWaits : List Action := [.status .waiting, .move (.push (some "later"))]

/-- The mark goes to the entry above, and when the stack is back at the call the addon runs once
more. -/
theorem pushesAndWaits_not_parksCall :
    ∃ bound left after, bind? sleepCall sleepScene = some ("sleep", bound) ∧
      Keeps (∅ : Named (Addon Unit)) 0 ((), bound) pushesAndWaits ∧
      bound.undergo pushesAndWaits = left ∧ left.thread.status = .waiting ∧
      (call (sleepAddon pushesAndWaits) sleepCall 0 sleepScene).2 = after ∧
      after.2.thread.marks = [false, true] ∧ ¬ ParksCall 0 left after.2 ∧
      (play (sleepAddon pushesAndWaits) after
        [.status .running, .move .pop, .block .call sleepCall]).1 = 2 := by
  have hrun : (bind? sleepCall sleepScene).any (fun (code, bound) =>
      code = "sleep" ∧ Keeps (∅ : Named (Addon Unit)) 0 ((), bound) pushesAndWaits ∧
        (bound.undergo pushesAndWaits).thread.status = .waiting) = true := by decide +kernel
  obtain ⟨⟨code, bound⟩, hbind, hrun⟩ := (Option.any_eq_true _ _).mp hrun
  obtain ⟨rfl, hkept, hwaiting⟩ := of_decide_eq_true hrun
  have hmarks : (call (sleepAddon pushesAndWaits) sleepCall 0 sleepScene).2.2.thread.marks =
      [false, true] := by decide +kernel
  refine ⟨bound, _, _, hbind, hkept, rfl, hwaiting, rfl, hmarks, ?_, by decide +kernel⟩
  intro hparks
  have hown := hparks.own
  rw [hmarks] at hown
  cases hown

end Procedure

end BlockStage
