import BlockStage.Proofs.Actions
import BlockStage.Proofs.Warp

/-!
How often a call block is dispatched. A visit of an entry lasts from the action that puts it on the
stack, on a new place or in place of another one, until it is dropped or replaced. Within a visit
the first call that can be resolved is dispatched, and no other.
-/

namespace BlockStage

/-! ## The start of a visit -/

/-- The action puts an entry on top of the stack, above the others or in place of the top one. -/
def Action.Opens {σ : Type} (addons : Named (Addon σ)) (p : σ × Scene) (a : Action) : Prop :=
  p.2.thread.stack.length < (act addons p a).2.thread.stack.length ∨ ∃ next, a = .move (.reuse next)

/-- The stack has an entry on top that is not executed. -/
def Thread.FreshTop (t : Thread) : Prop :=
  ∃ top below, t.stack = top :: below ∧ top.frame.executed = false

theorem Scene.freshTop_move (s : Scene) (m : Move)
    (h : s.thread.stack.length < (s.move m).thread.stack.length ∨ ∃ next, m = .reuse next) :
    (s.move m).thread.FreshTop := by
  rcases s.stack_move_cases m with ⟨_, _, _, hstack, _, _⟩ | ⟨code, rfl, hstack⟩ | ⟨rfl, hstack⟩ |
    ⟨_, _, _, _, _, hstack⟩
  · exact ⟨_, _, hstack, rfl⟩
  · simp [hstack] at h
  · simp only [hstack, List.length_tail, reduceCtorEq, exists_false, or_false] at h
    omega
  · exact ⟨_, _, hstack, rfl⟩

variable {σ : Type} {addons : Named (Addon σ)} {depth : Nat}

/-- What an action puts on the stack is not executed. -/
theorem freshTop_act {p : σ × Scene} {a : Action} (hfree : a.Unhooked addons)
    (hopens : a.Opens addons p) : (act addons p a).2.thread.FreshTop := by
  obtain ⟨host, s⟩ := p
  cases a with
  | move m => exact s.freshTop_move m (by simpa [Action.Opens, act] using hopens)
  | status | evaluate =>
    simp [Action.Opens, act, Scene.mapThread, Thread.modifyTop] at hopens
  | block opcode args =>
    replace hopens : s.thread.stack.length <
        (Procedure.run opcode addons args host s).2.2.thread.stack.length := by
      simpa [Action.Opens, act] using hopens
    cases opcode with
    | definition | reportStringNumber | reportBoolean =>
      exact absurd hopens (Nat.lt_irrefl _)
    | set =>
      cases hname : Procedure.setName? s <;>
        simp [Procedure.run, Procedure.set, hname, Scene.mapThread, Thread.modifyOutermost]
          at hopens
    | reportCommand =>
      rcases Procedure.reportCommand_eq args s with hsame | ⟨branch, hbranch⟩
      · simp [Procedure.run, hsame] at hopens
      · have hmove : (act addons (host, s) (.block .reportCommand args)).2 =
          s.move (.pushBranch branch) := hbranch
        rw [hmove]
        refine s.freshTop_move _ (.inl ?_)
        rwa [← hmove]
    | call =>
      rcases Procedure.call_cases hfree host s with ⟨_, hcall⟩ |
        ⟨entry, below, code, parameters, _, hstack, _, hcall⟩
      · simp [Procedure.run, hcall] at hopens
      · rw [Procedure.run, hcall] at hopens
        rw [act, Procedure.run, hcall]
        refine Scene.freshTop_move _ _ (.inl ?_)
        rw [hstack] at hopens
        exact hopens

/-! ## Within a visit -/

/-- The procedure that a call names has a signature in the current target. -/
def Arguments.Resolves (args : Arguments) (s : Scene) : Prop :=
  ∃ code signature, args.code? = some code ∧ s.signature? code = some signature

namespace Procedure

variable {s : Scene} {top : Entry} {below : List Entry}

theorem bind?_isSome_iff (hstack : s.thread.stack = top :: below) (args : Arguments) :
    (bind? args s).isSome = true ↔ top.frame.executed = false ∧ args.Resolves s := by
  rw [Option.isSome_iff_exists]
  constructor
  · rintro ⟨⟨code, bound⟩, hbind⟩
    obtain ⟨_, _, signature, hstack', hfresh, hcode, hsig, _⟩ :=
      (bind?_eq_some_iff args s code bound).mp hbind
    rw [hstack] at hstack'
    cases hstack'
    exact ⟨hfresh, code, signature, hcode, hsig⟩
  · rintro ⟨hfresh, code, signature, hcode, hsig⟩
    exact ⟨(code, _), (bind?_eq_some_iff args s code _).mpr
      ⟨top, below, signature, hstack, hfresh, hcode, hsig, rfl⟩⟩

/-- A call on an executed entry does nothing, nor does one that cannot be resolved. -/
theorem call_inert (hstack : s.thread.stack = top :: below) {args : Arguments}
    (h : top.frame.executed = true ∨ ¬ args.Resolves s) {σ : Type} (addons : Named (Addon σ))
    (host : σ) : call addons args host s = (none, host, s) := by
  have hnone : bind? args s = none := by
    rw [← Option.not_isSome_iff_eq_none, bind?_isSome_iff hstack]
    rintro ⟨hfresh, hresolves⟩
    rcases h with hexecuted | hnot
    · rw [hfresh] at hexecuted
      cases hexecuted
    · exact hnot hresolves
  simp [call, hnone]

/-- A call on any other entry binds its parameters and starts the body. -/
theorem call_dispatched (hstack : s.thread.stack = top :: below)
    (hfresh : top.frame.executed = false) {args : Arguments} (hresolves : args.Resolves s)
    {σ : Type} {addons : Named (Addon σ)}
    (hfree : ∀ code, args.code? = some code → addons[code]? = none) (host : σ) :
    ∃ code bound, bind? args s = some (code, bound) ∧
      call addons args host s = (none, host, (markExecuted bound).startProcedure code) := by
  obtain ⟨⟨code, bound⟩, hbind⟩ :=
    Option.isSome_iff_exists.mp ((bind?_isSome_iff hstack args).mpr ⟨hfresh, hresolves⟩)
  obtain ⟨_, _, _, _, _, hcode, _⟩ := (bind?_eq_some_iff args s code bound).mp hbind
  exact ⟨code, bound, hbind, by simp [call, hbind, hfree code hcode]⟩

end Procedure

/-- A run that dispatches at all has a call that does. -/
theorem exists_dispatch {p : σ × Scene} {actions : List Action}
    (h : dispatchCount addons depth p actions ≠ 0) :
    ∃ before args rest, actions = before ++ .block .call args :: rest ∧
      (Action.block .call args).dispatches depth (play addons p before).2 = true := by
  induction actions generalizing p with
  | nil => exact absurd rfl h
  | cons a actions ih =>
    by_cases ha : a.dispatches depth p.2 = true
    · unfold Action.dispatches at ha
      split at ha
      · exact ⟨[], _, actions, rfl, ha⟩
      · cases ha
    · rw [dispatchCount, eq_false_of_ne_true ha, Bool.toNat_false, Nat.zero_add] at h
      obtain ⟨before, args, rest, rfl, hdispatches⟩ := ih h
      exact ⟨a :: before, args, rest, rfl, hdispatches⟩

/-- Where the entry of a visit is on top, it is executed if and only if it was dispatched. -/
theorem top_of_visit {p : σ × Scene} {e : Entry} (h : p.2.thread.HasAt depth [] e)
    (hfresh : e.frame.executed = false) {actions : List Action}
    (hfree : ∀ a ∈ actions, a.Unhooked addons) (hkept : Keeps addons depth p actions)
    (htop : (play addons p actions).2.thread.stack.length = depth + 1) :
    ∃ top below, (play addons p actions).2.thread.stack = top :: below ∧
      top.frame.executed.toNat = dispatchCount addons depth p actions := by
  obtain ⟨above, top, hat, hcount, _⟩ := play_carries h actions hfree hkept
  have habove : above = [] := by
    have hlength := hat.length
    exact List.length_eq_zero_iff.mp (by omega)
  subst habove
  obtain ⟨below, hstack, _⟩ := hat
  rw [hfresh, Bool.toNat_false, Nat.zero_add] at hcount
  exact ⟨top, below, hstack, hcount⟩

/-- **One dispatch.** An action opens a visit of the entry at a depth, and a run keeps that entry.
Then at most one call of the run is dispatched with the entry on top, and one is as soon as one can
be resolved there. After it every call there, of whatever procedure, gives no result and changes
nothing; before it a call there either cannot be resolved, and then does as little, or is
dispatched. -/
theorem one_dispatch_per_visit (addons : Named (Addon σ)) (p start : σ × Scene) (a : Action)
    (depth : Nat) (actions : List Action) (hopens : a.Opens addons p)
    (hstart : act addons p a = start) (hdepth : start.2.thread.stack.length = depth + 1)
    (hfree : ∀ b ∈ a :: actions, b.Unhooked addons) (hkept : Keeps addons depth start actions) :
    dispatchCount addons depth start actions ≤ 1 ∧
      (dispatchCount addons depth start actions = 1 ↔
        ∃ before args rest, actions = before ++ .block .call args :: rest ∧
          (play addons start before).2.thread.stack.length = depth + 1 ∧
          args.Resolves (play addons start before).2) ∧
      ∀ before s, before <+: actions → (play addons start before).2 = s →
        s.thread.stack.length = depth + 1 →
        ∀ (τ : Type) (hooks : Named (Addon τ)) (args : Arguments) (host : τ),
          (dispatchCount addons depth start before = 1 ∨ ¬ args.Resolves s →
            Procedure.call hooks args host s = (none, host, s)) ∧
          (dispatchCount addons depth start before = 0 → args.Resolves s →
            (∀ code, args.code? = some code → hooks[code]? = none) →
            ∃ code bound, Procedure.bind? args s = some (code, bound) ∧
              Procedure.call hooks args host s =
                (none, host, (Procedure.markExecuted bound).startProcedure code)) := by
  obtain ⟨e, below, hstack, hfresh⟩ := freshTop_act (hfree a (by simp)) hopens
  rw [hstart] at hstack
  have hbelow : below.length = depth := by simpa [hstack] using hdepth
  have hat : start.2.thread.HasAt depth [] e := ⟨below, hstack, hbelow⟩
  have hrun : ∀ b ∈ actions, b.Unhooked addons := fun b hb => hfree b (by simp [hb])
  -- the count of a part of the run is the mark on the entry
  have hpart {before : List Action} (hbefore : before <+: actions)
      (htop : (play addons start before).2.thread.stack.length = depth + 1) :
      ∃ top below, (play addons start before).2.thread.stack = top :: below ∧
        top.frame.executed.toNat = dispatchCount addons depth start before :=
    top_of_visit hat hfresh (fun b hb => hrun b (hbefore.subset hb)) (hkept.of_prefix hbefore) htop
  have hmost : dispatchCount addons depth start actions ≤ 1 := by
    obtain ⟨_, top, _, hcount, _⟩ := play_carries hat actions hrun hkept
    rw [hfresh, Bool.toNat_false, Nat.zero_add] at hcount
    rw [← hcount]
    exact Bool.toNat_le _
  refine ⟨hmost, ⟨?_, ?_⟩, ?_⟩
  · intro hone
    obtain ⟨before, args, rest, rfl, hdispatches⟩ :=
      exists_dispatch (show dispatchCount addons depth start actions ≠ 0 by omega)
    simp only [Action.dispatches, Bool.and_eq_true, beq_iff_eq] at hdispatches
    obtain ⟨hlength, hbind⟩ := hdispatches
    obtain ⟨_, _, htop, _⟩ := hpart (List.prefix_append _ _) hlength
    exact ⟨before, args, rest, rfl, hlength, ((Procedure.bind?_isSome_iff htop args).mp hbind).2⟩
  · rintro ⟨before, args, rest, rfl, hlength, hresolves⟩
    obtain ⟨top, _, htop, hcount⟩ := hpart (List.prefix_append _ _) hlength
    rw [dispatchCount_append, dispatchCount] at hmost ⊢
    cases hmark : top.frame.executed with
    | true =>
      rw [hmark, Bool.toNat_true] at hcount
      omega
    | false =>
      have hdispatches :
          (Action.block .call args).dispatches depth (play addons start before).2 = true := by
        simp only [Action.dispatches, Bool.and_eq_true, beq_iff_eq]
        exact ⟨hlength, (Procedure.bind?_isSome_iff htop args).mpr ⟨hmark, hresolves⟩⟩
      rw [hdispatches, Bool.toNat_true] at hmost ⊢
      omega
  · rintro before s hbefore rfl hlength τ hooks args host
    obtain ⟨top, _, htop, hcount⟩ := hpart hbefore hlength
    constructor
    · intro hcase
      refine Procedure.call_inert htop (hcase.imp_left fun hone => ?_) hooks host
      exact Bool.toNat_eq_one.mp (hcount.trans hone)
    · intro hzero hresolves hunhooked
      have hmark : top.frame.executed = false := Bool.toNat_eq_zero.mp (hcount.trans hzero)
      exact Procedure.call_dispatched htop hmark hresolves hunhooked host

/-- A call of the procedure of `warpScene`. -/
def goCall : Arguments := { mutation := some { code := some "go" } }

theorem one_dispatch_per_visit_warpScene :
    ∃ start, act (∅ : Named (Addon Unit)) ((), Scene.warpScene) (.move (.reuse (some "again"))) =
        start ∧
      dispatchCount ∅ 0 start [.block .call goCall, .status .yielding, .move .pop,
        .block .call goCall] = 1 ∧
      Procedure.call (∅ : Named (Addon Unit)) goCall ()
          (play ∅ start [.block .call goCall, .status .yielding, .move .pop]).2 =
        (none, (), (play ∅ start [.block .call goCall, .status .yielding, .move .pop]).2) := by
  obtain ⟨signature, hsig⟩ := Option.isSome_iff_exists.mp
    (show ((act (∅ : Named (Addon Unit)) ((), Scene.warpScene)
      (.move (.reuse (some "again")))).2.signature? "go").isSome = true by decide +kernel)
  obtain ⟨_, hone, hwithin⟩ := one_dispatch_per_visit (∅ : Named (Addon Unit))
    ((), Scene.warpScene) _ (.move (.reuse (some "again"))) 0
    [.block .call goCall, .status .yielding, .move .pop, .block .call goCall]
    (.inr ⟨_, rfl⟩) rfl (by decide +kernel) (by simp [Action.Unhooked]) (by decide +kernel)
  refine ⟨_, rfl, hone.mpr ⟨[], goCall, _, rfl, rfl, "go", signature, rfl, hsig⟩, ?_⟩
  exact (hwithin _ _ ⟨[.block .call goCall], rfl⟩ rfl (by decide +kernel) Unit ∅ goCall ()).1
    (.inl (by decide +kernel))

end BlockStage
