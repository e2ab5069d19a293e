import BlockStage.Proofs.Moves

/-!
Runs of a thread, in which moves of the host and blocks of procedures take turns. An entry is
followed by its depth on the stack, the outermost one at depth zero. As long as nothing drops or
replaces it, a dispatch marks its frame, once, and after that only a parameter that is set can
change what the frame binds, and that only at depth zero.
-/

namespace BlockStage

/-- What happens to a running thread. -/
inductive Action where
  | move (m : Move)
  | status (status : Status)
  /-- The host turns to another block on the top frame. -/
  | evaluate (op : Option String)
  | block (opcode : Procedure.Opcode) (args : Arguments)

namespace Action

/-- The action calls no procedure that an addon takes over. -/
def Unhooked {σ : Type} (addons : Named (Addon σ)) : Action → Prop
  | block .call args => ∀ code, args.code? = some code → addons[code]? = none
  | _ => True

/-- The action drops or replaces the entry at a depth, that being the top. -/
def removes (depth : Nat) (s : Scene) : Action → Bool
  | move .pop | move (.reuse _) => s.thread.stack.length == depth + 1
  | _ => false

/-- The action is a call, with the entry at a depth on top, that binds parameters. -/
def dispatches (depth : Nat) (s : Scene) : Action → Bool
  | block .call args => s.thread.stack.length == depth + 1 && (Procedure.bind? args s).isSome
  | _ => false

/-- The parameter that the action sets, with its value. -/
def writes (s : Scene) : Action → List (String × Value)
  | block .set args =>
    (Procedure.setName? s).toList.map fun name => (name, (args.values["VALUE"]?).getD .zero)
  | _ => []

end Action

/-! ## Runs -/

section Runs

variable {σ : Type} (addons : Named (Addon σ))

def act : σ × Scene → Action → σ × Scene
  | (host, s), .move m => (host, s.move m)
  | (host, s), .status status => (host, s.mapThread fun t => { t with status })
  | (host, s), .evaluate op => (host, s.mapThread (·.modifyTop fun f => { f with op }))
  | (host, s), .block opcode args => (Procedure.run opcode addons args host s).2

def play (start : σ × Scene) (actions : List Action) : σ × Scene := actions.foldl (act addons) start

/-- The run never drops or replaces the entry at a depth. -/
def Keeps (depth : Nat) : σ × Scene → List Action → Prop
  | _, [] => True
  | p, a :: actions => a.removes depth p.2 = false ∧ Keeps depth (act addons p a) actions

/-- How many calls of the run dispatch with the entry at a depth on top. -/
def dispatchCount (depth : Nat) : σ × Scene → List Action → Nat
  | _, [] => 0
  | p, a :: actions =>
    (a.dispatches depth p.2).toNat + dispatchCount depth (act addons p a) actions

/-- The parameters that the run sets, in order. -/
def written : σ × Scene → List Action → List (String × Value)
  | _, [] => []
  | p, a :: actions => a.writes p.2 ++ written (act addons p a) actions

instance decidableKeeps (depth : Nat) (p : σ × Scene) :
    (actions : List Action) → Decidable (Keeps addons depth p actions)
  | [] => inferInstanceAs (Decidable True)
  | a :: actions =>
    have : Decidable (Keeps addons depth (act addons p a) actions) :=
      decidableKeeps depth (act addons p a) actions
    inferInstanceAs (Decidable (_ ∧ _))

variable {addons} {depth : Nat} {p : σ × Scene}

theorem Keeps.of_prefix {start actions : List Action} (h : Keeps addons depth p actions)
    (hstart : start <+: actions) : Keeps addons depth p start := by
  induction start generalizing p actions with
  | nil => trivial
  | cons a start ih =>
    obtain ⟨rest, rfl⟩ := hstart
    exact ⟨h.1, ih h.2 (List.prefix_append start rest)⟩

theorem dispatchCount_append (first rest : List Action) :
    dispatchCount addons depth p (first ++ rest) =
      dispatchCount addons depth p first +
        dispatchCount addons depth (play addons p first) rest := by
  induction first generalizing p with
  | nil => simp [dispatchCount, play]
  | cons a first ih =>
    rw [List.cons_append, dispatchCount, dispatchCount, ih, Nat.add_assoc]
    rfl

end Runs

/-! ## An entry at a depth -/

namespace Thread

/-- Entry `e` stands at a depth of the stack, right beneath `above`. -/
def HasAt (t : Thread) (depth : Nat) (above : List Entry) (e : Entry) : Prop :=
  ∃ below, t.stack = above ++ e :: below ∧ below.length = depth

variable {t after : Thread} {depth : Nat} {above : List Entry} {e : Entry}

theorem HasAt.length (h : t.HasAt depth above e) :
    t.stack.length = above.length + depth + 1 := by
  obtain ⟨below, hstack, hbelow⟩ := h
  rw [hstack, List.length_append, List.length_cons, hbelow]
  omega

theorem HasAt.congr (h : t.HasAt depth above e) (hstack : after.stack = t.stack) :
    after.HasAt depth above e := by
  obtain ⟨below, hs, hbelow⟩ := h
  exact ⟨below, hstack.trans hs, hbelow⟩

theorem HasAt.pushed {top : Entry} (h : t.HasAt depth above e)
    (hstack : after.stack = top :: t.stack) : after.HasAt depth (top :: above) e := by
  obtain ⟨below, hs, hbelow⟩ := h
  exact ⟨below, by rw [hstack, hs, List.cons_append], hbelow⟩

/-- What happens to the top changes the entry only if it is the top. -/
theorem HasAt.of_cons {top : Entry} {below : List Entry} (h : t.HasAt depth above e)
    (hstack : t.stack = top :: below) :
    (above = [] ∧ e = top ∧ below.length = depth) ∨
      ∃ rest, above = top :: rest ∧ ∀ u : Thread, u.stack = below → u.HasAt depth rest e := by
  obtain ⟨base, hs, hbase⟩ := h
  rw [hstack] at hs
  cases above with
  | nil =>
    obtain ⟨rfl, rfl⟩ := List.cons.inj hs
    exact .inl ⟨rfl, rfl, hbase⟩
  | cons first rest =>
    obtain ⟨rfl, hbelow⟩ := List.cons.inj hs
    exact .inr ⟨rest, rfl, fun u hu => ⟨base, hu.trans hbelow, hbase⟩⟩

end Thread

/-! ## One action -/

/-- What action `a` in scene `s` makes of entry `e` at a depth. -/
structure Action.Carries (a : Action) (depth : Nat) (s : Scene) (e after : Entry) : Prop where
  executed : after.frame.executed.toNat =
    e.frame.executed.toNat + (a.dispatches depth s).toNat
  parameters (bound : Parameters) : e.frame.executed = true → e.frame.parameters = some bound →
    after.frame.parameters =
      some (if depth = 0 then bound.insertMany (a.writes s) else bound)

namespace Action.Carries

variable {a : Action} {depth : Nat} {s : Scene} {e after : Entry}

/-- An action that neither dispatches nor sets leaves the marks of an entry as they are. -/
theorem of_same (hdispatches : a.dispatches depth s = false) (hwrites : a.writes s = [])
    (hexecuted : after.frame.executed = e.frame.executed)
    (hparameters : after.frame.parameters = e.frame.parameters) : a.Carries depth s e after where
  executed := by rw [hexecuted, hdispatches, Bool.toNat_false, Nat.add_zero]
  parameters bound _ hbound := by
    rw [hparameters, hbound, hwrites, Std.ExtTreeMap.insertMany_nil, ite_self]

end Action.Carries

namespace Scene

variable {s : Scene} {depth : Nat} {above : List Entry} {e : Entry}

/-- A move keeps an entry, unless it drops or replaces just that one. -/
theorem hasAt_move (h : s.thread.HasAt depth above e) (m : Move)
    (hkept : (Action.move m).removes depth s = false) :
    ∃ above, (s.move m).thread.HasAt depth above e := by
  have htop {top : Entry} {below : List Entry} (hstack : s.thread.stack = top :: below)
      (hother : s.thread.stack.length ≠ depth + 1) :
      ∃ rest, ∀ u : Thread, u.stack = below → u.HasAt depth rest e := by
    rcases h.of_cons hstack with ⟨rfl, _, _⟩ | ⟨rest, _, hrest⟩
    · exact absurd h.length (by simpa using hother)
    · exact ⟨rest, hrest⟩
  rcases s.stack_move_cases m with ⟨_, _, _, hstack, _, _⟩ | ⟨_, _, hstack⟩ | ⟨rfl, hstack⟩ |
    ⟨next, top, below, rfl, hs, hstack⟩
  · exact ⟨_, h.pushed hstack⟩
  · exact ⟨_, h.congr hstack⟩
  · cases hs : s.thread.stack with
    | nil => simpa [hs] using h.length
    | cons top below =>
      obtain ⟨rest, hrest⟩ := htop hs (by simpa [Action.removes] using hkept)
      exact ⟨rest, hrest _ (by rw [hstack, hs, List.tail_cons])⟩
  · obtain ⟨rest, hrest⟩ := htop hs (by simpa [Action.removes] using hkept)
    exact ⟨_, (hrest { s.thread with stack := below } rfl).pushed hstack⟩

/-- Changing the top frame changes an entry only if it is the top. -/
theorem hasAt_modifyTop (h : s.thread.HasAt depth above e) (f : Frame → Frame) :
    ∃ above after, (s.thread.modifyTop f).HasAt depth above after ∧
      (after.frame = e.frame ∨ after.frame = f e.frame) := by
  obtain ⟨below, hs, hbelow⟩ := h
  cases above with
  | nil =>
    exact ⟨[], { e with frame := f e.frame }, ⟨below, by simp [Thread.modifyTop, hs], hbelow⟩,
      .inr rfl⟩
  | cons top rest =>
    exact ⟨{ top with frame := f top.frame } :: rest, e,
      ⟨below, by simp [Thread.modifyTop, hs], hbelow⟩, .inl rfl⟩

/-- Changing the outermost frame changes an entry exactly if it is the outermost. -/
theorem hasAt_modifyOutermost (h : s.thread.HasAt depth above e) (f : Frame → Frame) :
    (s.thread.modifyOutermost f).HasAt depth above
      (if depth = 0 then { e with frame := f e.frame } else e) := by
  obtain ⟨below, hs, rfl⟩ := h
  have hlast : s.thread.stack.length - 1 = above.length + below.length := by
    rw [hs, List.length_append, List.length_cons, Nat.add_succ_sub_one]
  have hsplit (g : Entry → Entry) :
      s.thread.stack.modify (s.thread.stack.length - 1) g =
        above ++ (e :: below).modify below.length g := by
    rw [hlast, hs]
    exact List.modifyTailIdx_add _ _ _ _
  cases below with
  | nil => exact ⟨[], by simp [Thread.modifyOutermost, hsplit], rfl⟩
  | cons next below =>
    refine ⟨(next :: below).modify below.length fun e => { e with frame := f e.frame }, ?_, ?_⟩
    · simp [Thread.modifyOutermost, hsplit]
    · rw [List.length_modify]

end Scene

/-! ## What a block of procedures does -/

namespace Procedure

/-- Running a branch is a move of the host, if there is anything to run. -/
theorem reportCommand_eq (args : Arguments) (s : Scene) :
    reportCommand args s = s ∨ ∃ branch, reportCommand args s = s.move (.pushBranch branch) := by
  unfold reportCommand
  split
  · exact .inl rfl
  · split
    · exact .inl rfl
    · next branch _ => exact .inr ⟨branch, rfl⟩

/-- **One call** that no addon takes over. It changes nothing, or it binds parameters on an entry
that is not executed, marks it, and the host starts the body. -/
theorem call_cases {σ : Type} {addons : Named (Addon σ)} {args : Arguments}
    (hfree : ∀ code, args.code? = some code → addons[code]? = none) (host : σ) (s : Scene) :
    (bind? args s = none ∧ call addons args host s = (none, host, s)) ∨
      ∃ entry below code parameters, (bind? args s).isSome = true ∧
        s.thread.stack = entry :: below ∧ entry.frame.executed = false ∧
        call addons args host s = (none, host, (s.mapThread fun t => { t with
          stack := { entry with frame := { entry.frame with
            executed := true
            parameters := some parameters } } :: below }).move (.start code)) := by
  cases hbind : bind? args s with
  | none => exact .inl ⟨rfl, by simp [call, hbind]⟩
  | some found =>
    obtain ⟨code, bound⟩ := found
    obtain ⟨entry, below, signature, hstack, hfresh, hcode, hsig, _⟩ :=
      (bind?_eq_some_iff args s code bound).mp hbind
    obtain ⟨parameters, hcall⟩ := call_of_no_addon hstack hfresh hcode hsig (hfree code hcode) host
    exact .inr ⟨entry, below, code, parameters, rfl, hstack, hfresh, hcall⟩

end Procedure

/-! ## One action and one run -/

section

variable {σ : Type} {addons : Named (Addon σ)} {depth : Nat} {above : List Entry} {e : Entry}

/-- Setting a parameter binds it on the outermost entry. -/
theorem set_carries {s : Scene} (h : s.thread.HasAt depth above e) (args : Arguments) :
    ∃ after, (Procedure.set args s).thread.HasAt depth above after ∧
      (Action.block .set args).Carries depth s e after := by
  cases hname : Procedure.setName? s with
  | none =>
    refine ⟨e, ?_, .of_same rfl (by simp [Action.writes, hname]) rfl rfl⟩
    simpa [Procedure.set, hname] using h
  | some name =>
    have hset : (Procedure.set args s).thread = s.thread.modifyOutermost
        (·.bind name ((args.values["VALUE"]?).getD .zero)) := by
      simp [Procedure.set, hname, Scene.mapThread]
    refine ⟨_, hset ▸ Scene.hasAt_modifyOutermost h _, ?_, ?_⟩
    · split <;> rfl
    · intro bound _ hbound
      split
      · simp [Frame.bind, hbound, Action.writes, hname]
      · exact hbound

/-- A call that binds parameters marks the top entry and leaves the others as they are. -/
theorem call_carries {host : σ} {s : Scene} (h : s.thread.HasAt depth above e) (args : Arguments)
    (hfree : (Action.block .call args).Unhooked addons) :
    ∃ above after, (Procedure.call addons args host s).2.2.thread.HasAt depth above after ∧
      (Action.block .call args).Carries depth s e after := by
  rcases Procedure.call_cases hfree host s with ⟨hbind, hcall⟩ |
    ⟨entry, below, code, parameters, hbind, hstack, hfresh, hcall⟩
  · refine ⟨above, e, ?_, .of_same (by simp [Action.dispatches, hbind]) rfl rfl rfl⟩
    rw [hcall]
    exact h
  · rw [hcall]
    obtain ⟨called, hcalled⟩ : ∃ called : Entry, called = { entry with frame := { entry.frame with
      executed := true, parameters := some parameters } } := ⟨_, rfl⟩
    rw [← hcalled]
    rcases h.of_cons hstack with ⟨rfl, rfl, hdepth⟩ | ⟨rest, rfl, hrest⟩
    · have htop : (s.mapThread fun t => { t with stack := called :: below }).thread.HasAt depth []
          called := ⟨below, rfl, hdepth⟩
      obtain ⟨above, hstarted⟩ := Scene.hasAt_move htop (.start code) rfl
      refine ⟨above, called, hstarted, ?_, ?_⟩
      · have hdispatch : (Action.block .call args).dispatches depth s = true := by
          simp [Action.dispatches, hstack, hdepth, hbind]
        rw [hcalled, hfresh, hdispatch]
        rfl
      · intro bound hexecuted
        rw [hfresh] at hexecuted
        cases hexecuted
    · have hother : (s.mapThread fun t => { t with stack := called :: below }).thread.HasAt depth
          (called :: rest) e := (hrest { s.thread with stack := below } rfl).pushed rfl
      obtain ⟨above, hstarted⟩ := Scene.hasAt_move hother (.start code) rfl
      refine ⟨above, e, hstarted, .of_same ?_ rfl rfl rfl⟩
      have hheight := h.length
      simp only [List.length_cons] at hheight
      simp only [Action.dispatches, Bool.and_eq_false_iff, beq_eq_false_iff_ne]
      exact .inl (by omega)

/-- **One action.** It keeps the entry at a depth, unless it drops or replaces just that one, and
says what becomes of it. -/
theorem act_carries {p : σ × Scene} (h : p.2.thread.HasAt depth above e) (a : Action)
    (hfree : a.Unhooked addons) (hkept : a.removes depth p.2 = false) :
    ∃ above after, (act addons p a).2.thread.HasAt depth above after ∧
      a.Carries depth p.2 e after := by
  obtain ⟨host, s⟩ := p
  cases a with
  | move m =>
    obtain ⟨above, hmoved⟩ := Scene.hasAt_move h m hkept
    exact ⟨above, e, hmoved, .of_same rfl rfl rfl rfl⟩
  | status status => exact ⟨above, e, h.congr rfl, .of_same rfl rfl rfl rfl⟩
  | evaluate op =>
    obtain ⟨above, after, hafter, hframe⟩ := Scene.hasAt_modifyTop h fun f => { f with op }
    refine ⟨above, after, hafter, .of_same rfl rfl ?_ ?_⟩
    · rcases hframe with hframe | hframe <;> rw [hframe]
    · rcases hframe with hframe | hframe <;> rw [hframe]
  | block opcode args =>
    cases opcode with
    | definition | reportStringNumber | reportBoolean =>
      exact ⟨above, e, h, .of_same rfl rfl rfl rfl⟩
    | reportCommand =>
      rcases Procedure.reportCommand_eq args s with hsame | ⟨branch, hbranch⟩
      · exact ⟨above, e, h.congr (congrArg (·.thread.stack) hsame), .of_same rfl rfl rfl rfl⟩
      · obtain ⟨above, hmoved⟩ := Scene.hasAt_move h (.pushBranch branch) rfl
        exact ⟨above, e, hmoved.congr (congrArg (·.thread.stack) hbranch),
          .of_same rfl rfl rfl rfl⟩
    | set =>
      obtain ⟨after, hset, hcarries⟩ := set_carries h args
      exact ⟨above, after, hset, hcarries⟩
    | call => exact call_carries h args hfree

/-- **One run.** What a run makes of an entry that it keeps. -/
theorem play_carries {p : σ × Scene} (h : p.2.thread.HasAt depth above e) (actions : List Action)
    (hfree : ∀ a ∈ actions, a.Unhooked addons) (hkept : Keeps addons depth p actions) :
    ∃ above after, (play addons p actions).2.thread.HasAt depth above after ∧
      after.frame.executed.toNat =
        e.frame.executed.toNat + dispatchCount addons depth p actions ∧
      ∀ bound, e.frame.executed = true → e.frame.parameters = some bound →
        after.frame.parameters = some
          (if depth = 0 then bound.insertMany (written addons p actions) else bound) := by
  induction actions generalizing p above e with
  | nil =>
    refine ⟨above, e, h, rfl, fun bound _ hbound => ?_⟩
    rw [hbound, written, Std.ExtTreeMap.insertMany_nil, ite_self]
  | cons a actions ih =>
    obtain ⟨_, next, hnext, hexecuted, hparameters⟩ :=
      act_carries h a (hfree a (by simp)) hkept.1
    obtain ⟨above, after, hafter, hcount, hbindings⟩ :=
      ih hnext (fun b hb => hfree b (by simp [hb])) hkept.2
    refine ⟨above, after, hafter, ?_, ?_⟩
    · rw [hcount, hexecuted, dispatchCount, Nat.add_assoc]
    · intro bound hmarked hbound
      have hstill : next.frame.executed = true := by
        have hbounded := Bool.toNat_le next.frame.executed
        rw [hmarked] at hexecuted
        simp only [Bool.toNat_true] at hexecuted
        exact Bool.toNat_eq_one.mp (by omega)
      rw [hbindings _ hstill (hparameters bound hmarked hbound)]
      split
      · rw [written, Std.ExtTreeMap.insertMany_append]
      · rfl

end

end BlockStage
