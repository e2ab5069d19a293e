import BlockStage.Proofs.Scopes

/-!
What setting a parameter writes. It is one binding on the outermost frame of the thread, or nothing
at all when the active block does not lead to a name. Reads answer from the nearest frame that owns
parameters, so they see the binding if that is the outermost one.
-/

namespace BlockStage

/-! ## The name that is set -/

/-- The thread is at a block: the one evaluated on its top frame, or in compiled mode the one on top
of its stack. -/
def Thread.IsAt (t : Thread) (id : String) : Prop :=
  ∃ top below, t.stack = top :: below ∧
    (t.mode = .interpreted ∧ top.frame.op = some id ∨ t.mode = .compiled ∧ top.block = some id)

theorem Thread.activeBlock?_eq_some_iff (t : Thread) (id : String) :
    t.activeBlock? = some id ↔ t.IsAt id := by
  cases hstack : t.stack <;> cases hmode : t.mode <;>
    simp [activeBlock?, topFrame?, topOfStack?, IsAt, hstack, hmode]

/-- The active block has a block plugged into its slot for a parameter, and the field of that one
names the parameter. All of it belongs to the current target. -/
def Scene.SetsParameter (s : Scene) (name : String) : Prop :=
  ∃ active b slot reporter field, s.thread.IsAt active ∧ s.block? active = some b ∧
    b.inputs["PARAM"]? = some (.block slot) ∧ s.block? slot = some reporter ∧
    reporter.fields["VALUE"]? = some field ∧ field.value.display = name

theorem Procedure.setName?_eq_some_iff (s : Scene) (name : String) :
    setName? s = some name ↔ s.SetsParameter name := by
  simp only [setName?, Option.bind_eq_bind, Option.bind_eq_some_iff, Option.pure_def,
    Option.some.injEq, plugged?_eq_some_iff, Thread.activeBlock?_eq_some_iff]
  constructor
  · rintro ⟨active, hactive, b, hb, slot, hslot, reporter, hreporter, field, hfield, hname⟩
    exact ⟨active, b, slot, reporter, field, hactive, hb, hslot, hreporter, hfield, hname⟩
  · rintro ⟨active, b, slot, reporter, field, hactive, hb, hslot, hreporter, hfield, hname⟩
    exact ⟨active, hactive, b, hb, slot, hslot, reporter, hreporter, field, hfield, hname⟩

/-! ## The binding that is written -/

namespace Scene

/-- `after` is scene `s` with one binding written on the outermost frame, beneath the entries
`inner`. A frame without parameters gets its first ones. -/
def BindsOutermost (s after : Scene) (name : String) (value : Value) (inner : List Entry) : Prop :=
  ∃ outermost bound, s.thread.stack = inner ++ [outermost] ∧
    after = { s with thread := { s.thread with stack := inner ++ [{ outermost with
      frame := { outermost.frame with parameters := some bound } }] } } ∧
    bound[name]? = some value ∧
    ∀ key, key ≠ name → bound[key]? = outermost.frame.parameters.bind (·[key]?)

variable {s after : Scene} {name : String} {value : Value} {inner : List Entry}

/-- A binding on the outermost frame is read if no other frame owns parameters, and changes what is
read under no other name. -/
theorem BindsOutermost.parameter?_of_none (h : s.BindsOutermost after name value inner)
    (hinner : ∀ e ∈ inner, e.frame.parameters = none) :
    after.thread.parameter? name = some value ∧
      ∀ key, key ≠ name → after.thread.parameter? key = s.thread.parameter? key := by
  obtain ⟨outermost, bound, hstack, rfl, hname, hother⟩ := h
  have hscope : s.thread.scope? = outermost.frame.parameters := by
    rw [Thread.scope?, hstack, List.findSome?_append, List.findSome?_eq_none_iff.mpr hinner]
    simp
  have hbound : ({ s.thread with stack := inner ++ [{ outermost with
      frame := { outermost.frame with parameters := some bound } }] } : Thread).scope? =
      some bound :=
    Thread.scope?_of_nearest rfl hinner rfl
  refine ⟨by rw [Thread.parameter?, hbound]; exact hname, fun key hkey => ?_⟩
  rw [Thread.parameter?, hbound, Thread.parameter?, hscope]
  exact hother key hkey

/-- A frame with parameters above the outermost one answers as before. -/
theorem BindsOutermost.parameter?_of_some (h : s.BindsOutermost after name value inner)
    (hinner : ∃ e ∈ inner, e.frame.parameters.isSome) (key : String) :
    after.thread.parameter? key = s.thread.parameter? key := by
  obtain ⟨outermost, bound, hstack, rfl, _, _⟩ := h
  obtain ⟨own, hown⟩ : ∃ own, inner.findSome? (·.frame.parameters) = some own :=
    Option.isSome_iff_exists.mp (List.findSome?_isSome_iff.mpr hinner)
  simp [Thread.parameter?, Thread.scope?, hstack, List.findSome?_append, hown]

/-- What reporters read after the binding is written. -/
theorem BindsOutermost.report (h : s.BindsOutermost after name value inner) (reader : Arguments) :
    ((reader.values["VALUE"]?).map Value.display = some name →
      (∀ e ∈ inner, e.frame.parameters = none) → Procedure.report reader after = value) ∧
    ((reader.values["VALUE"]?).map Value.display ≠ some name ∨
      (∃ e ∈ inner, e.frame.parameters.isSome) →
        Procedure.report reader after = Procedure.report reader s) := by
  cases hread : reader.values["VALUE"]? with
  | none => simp [Procedure.report, hread]
  | some read =>
    simp only [Option.map_some, Option.some.injEq, Procedure.report, hread, Option.bind_some]
    constructor
    · rintro hname hinner
      rw [hname, (h.parameter?_of_none hinner).1, Option.getD_some]
    · rintro hcase
      suffices hsame : after.thread.parameter? read.display = s.thread.parameter? read.display by
        rw [hsame]
      by_cases hinner : ∃ e ∈ inner, e.frame.parameters.isSome
      · exact h.parameter?_of_some hinner _
      · have hother : read.display ≠ name := fun hname =>
          hcase.resolve_right hinner (congrArg some hname)
        refine (h.parameter?_of_none fun e he => ?_).2 _ hother
        exact Option.not_isSome_iff_eq_none.mp fun hsome => hinner ⟨e, he, hsome⟩

/-- The same scene with its thread in the given mode. -/
def inMode (s : Scene) (mode : Mode) : Scene := s.mapThread fun t => { t with mode }

end Scene

namespace Procedure

theorem stack_ne_nil_of_setsParameter {s : Scene} {name : String} (h : s.SetsParameter name) :
    s.thread.stack ≠ [] := by
  obtain ⟨_, _, _, _, _, ⟨top, below, hstack, _⟩, _⟩ := h
  simp [hstack]

theorem set_bindsOutermost {s : Scene} {name : String} (h : s.SetsParameter name)
    (args : Arguments) :
    ∃ inner, s.BindsOutermost (set args s) name ((args.values["VALUE"]?).getD (.integer 0))
      inner := by
  obtain ⟨inner, outermost, hstack⟩ :=
    s.thread.eq_nil_or_outermost.resolve_left (stack_ne_nil_of_setsParameter h)
  refine ⟨inner, outermost, (outermost.frame.parameters.getD ∅).insert name
    ((args.values["VALUE"]?).getD .zero), hstack, ?_, ?_, ?_⟩
  · simp only [set, (setName?_eq_some_iff s name).mpr h, Scene.mapThread,
      Thread.modifyOutermost_of_append hstack, Frame.bind]
  · simp [Value.zero]
  · intro key hkey
    rw [Std.ExtTreeMap.getElem?_insert, if_neg (by simpa using Ne.symm hkey)]
    cases outermost.frame.parameters <;> simp

theorem setName?_inMode {s : Scene}
    (hsame : s.thread.topFrame?.bind Frame.op = s.thread.topOfStack?) (mode : Mode) :
    setName? (s.inMode mode) = setName? s := by
  have hactive (t : Thread) (h : t.topFrame?.bind Frame.op = t.topOfStack?) :
      t.activeBlock? = t.topOfStack? := by
    cases hmode : t.mode <;> simp [Thread.activeBlock?, hmode, h]
  have hthread : (s.inMode mode).thread.activeBlock? = s.thread.activeBlock? := by
    rw [hactive _ hsame, hactive (s.inMode mode).thread hsame]
    rfl
  rw [setName?, setName?, hthread]
  rfl

/-- **One binding or nothing.** If the active block leads to a name, setting binds that name on the
outermost frame and changes nothing else; a read of the name gives the new value unless a nearer
frame owns parameters, and every other read is as before. Otherwise setting changes nothing. Where
the top frame evaluates the block on top of the stack, both modes have the same effect. -/
theorem set_writes_at_most_one {σ : Type} (addons : Named (Addon σ)) (args : Arguments) (host : σ)
    (s : Scene) :
    ∃ after, run .set addons args host s = (none, host, after) ∧
      (∀ name, s.SetsParameter name → ∃ inner,
        s.BindsOutermost after name ((args.values["VALUE"]?).getD (.integer 0)) inner ∧
        ∀ reader : Arguments,
          ((reader.values["VALUE"]?).map Value.display = some name →
            (∀ e ∈ inner, e.frame.parameters = none) →
              report reader after = (args.values["VALUE"]?).getD (.integer 0)) ∧
          ((reader.values["VALUE"]?).map Value.display ≠ some name ∨
            (∃ e ∈ inner, e.frame.parameters.isSome) →
              report reader after = report reader s)) ∧
      ((∀ name, ¬ s.SetsParameter name) → after = s) ∧
      (s.thread.topFrame?.bind Frame.op = s.thread.topOfStack? → ∀ mode,
        run .set addons args host (s.inMode mode) = (none, host, after.inMode mode)) := by
  refine ⟨set args s, rfl, ?_, ?_, ?_⟩
  · intro name hsets
    obtain ⟨inner, hbinds⟩ := set_bindsOutermost hsets args
    exact ⟨inner, hbinds, hbinds.report⟩
  · intro hnone
    have hname : setName? s = none :=
      Option.eq_none_iff_forall_ne_some.mpr fun name h =>
        hnone name ((setName?_eq_some_iff s name).mp h)
    simp [set, hname]
  · intro hsame mode
    have hname := setName?_inMode hsame mode
    cases hset : setName? s with
    | none =>
      rw [hset] at hname
      simp [run, set, hset, hname]
    | some name =>
      rw [hset] at hname
      simp only [run, set, hset, hname]
      rfl

def valueArgument (v : Value) : Arguments := { values := .ofList [("VALUE", v)] }

/-- A block that sets `x`, in the body of a call that has bound `x`, above a hat. -/
def setterScene : Scene :=
  let setter : Block := {
    opcode := Opcode.set.name, inputs := .ofList [("PARAM", Input.block "slot")] }
  let reporter : Block := {
    opcode := Opcode.reportStringNumber.name
    fields := .ofList [("VALUE", (⟨.text "x", none⟩ : Field))] }
  soloScene (.ofList [("set", setter), ("slot", reporter)])
    [{ block := some "set", frame := { op := some "set" } },
      { block := some "call", frame := { parameters := some (.ofList [("x", Value.integer 5)]) } },
      { block := some "hat" }]

/-- The hat gets the binding, and reads go on to answer from the call. -/
theorem set_writes_at_most_one_setterScene :
    setterScene.SetsParameter "x" ∧
      ∃ after inner, run .set (∅ : Named (Addon Unit)) (valueArgument (.integer 9)) () setterScene =
          (none, (), after) ∧
        setterScene.BindsOutermost after "x" (.integer 9) inner ∧
        (report (valueArgument (.text "x")) after).display = "5" := by
  have hsets : setterScene.SetsParameter "x" :=
    (setName?_eq_some_iff _ _).mp (by decide +kernel)
  obtain ⟨after, hrun, hwrites, _⟩ := set_writes_at_most_one (∅ : Named (Addon Unit))
    (valueArgument (.integer 9)) () setterScene
  obtain ⟨inner, hbinds, hreads⟩ := hwrites "x" hsets
  have hvalue : ((valueArgument (.integer 9)).values["VALUE"]?).getD (.integer 0) =
      .integer 9 := by simp [valueArgument]
  rw [hvalue] at hbinds
  refine ⟨hsets, after, inner, hrun, hbinds, ?_⟩
  have hinner : ∃ e ∈ inner, e.frame.parameters.isSome := by
    obtain ⟨outermost, _, hstack, _⟩ := hbinds
    have hsplit : setterScene.thread.stack.dropLast = inner := by rw [hstack, List.dropLast_concat]
    rw [← hsplit]
    exact ⟨_, List.mem_cons_of_mem _ List.mem_cons_self, rfl⟩
  rw [(hreads (valueArgument (.text "x"))).2 (.inr hinner)]
  decide +kernel

end Procedure

end BlockStage
