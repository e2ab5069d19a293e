import BlockStage.Procedure
import BlockStage.Proofs.ProcedureIndex

/-!
Binding of parameters. A call leaves on its own frame a mapping that depends on the signature and on
the arguments under its ids, and on nothing else; `call_binds_parameters` ties that to the addon or
the body that runs next.
-/

namespace BlockStage

/-! ## Maps from lists in which the last value of a name counts -/

theorem getElem?_ofList_of_last (l : List (String × α)) (k : Nat) (name : String) (a : α)
    (hk : l[k]? = some (name, a)) (hlast : ∀ j, k < j → (l.map Prod.fst)[j]? ≠ some name) :
    (Std.ExtTreeMap.ofList l : Named α)[name]? = some a := by
  obtain ⟨hlt, hget⟩ := List.getElem?_eq_some_iff.mp hk
  have hsplit : l = l.take k ++ (name, a) :: l.drop (k + 1) := by
    rw [← hget, List.getElem_cons_drop, List.take_append_drop]
  have hafter : ∀ p ∈ (l.drop (k + 1)).reverse, p.1 ≠ name := by
    intro p hp hname
    obtain ⟨i, hi⟩ := List.mem_iff_getElem?.mp (List.mem_reverse.mp hp)
    rw [List.getElem?_drop] at hi
    exact hlast (k + 1 + i) (by omega) (by simp [hi, hname])
  have hrev : l.reverse = (l.drop (k + 1)).reverse ++ (name, a) :: (l.take k).reverse :=
    calc
      l.reverse = (l.take k ++ (name, a) :: l.drop (k + 1)).reverse := by rw [← hsplit]
      _ = _ := by simp
  rw [Std.ExtTreeMap.ofList_eq_insertMany_empty, Std.ExtTreeMap.getElem?_insertMany_list,
    Std.ExtTreeMap.getElem?_empty, Option.or_none, List.findSomeRev?_eq_findSome?_reverse,
    List.findSome?_eq_some_iff]
  refine ⟨_, (name, a), _, hrev, by simp, ?_⟩
  intro p hp
  simp [hafter p hp]

theorem exists_last_position (names : List String) (name : String) (h : name ∈ names) :
    ∃ k : Nat, names[k]? = some name ∧ ∀ j, k < j → names[j]? ≠ some name := by
  induction names with
  | nil => simp at h
  | cons first names ih =>
    by_cases hmem : name ∈ names
    · obtain ⟨k, hk, hlast⟩ := ih hmem
      refine ⟨k + 1, by simpa using hk, ?_⟩
      rintro (_ | j) hj
      · omega
      · simpa using hlast j (by omega)
    · have hfirst : first = name := by simpa [hmem, eq_comm] using h
      refine ⟨0, by simp [hfirst], ?_⟩
      rintro (_ | j) hj hget
      · omega
      · exact hmem (List.mem_of_getElem? (by simpa using hget))

namespace Procedure

/-! ## The mapping that a call binds -/

/-- `parameters` has the names of a signature and no others. A name stands for its last position:
for the argument under the id there, and without one for the default there. -/
structure IsBinding (signature : Signature) (arguments : Named Value) (parameters : Parameters) :
    Prop where
  mem_iff (name : String) : name ∈ parameters ↔ name ∈ signature.names
  value (k : Nat) (name : String) : signature.names[k]? = some name →
    (∀ j, k < j → signature.names[j]? ≠ some name) →
      ∃ id default, signature.ids[k]? = some id ∧ signature.defaults[k]? = some default ∧
        parameters[name]? = some ((arguments[id]?).getD default)

/-- There is one such mapping, and it depends on no argument but those under the ids. -/
theorem IsBinding.unique {signature : Signature} {arguments arguments' : Named Value}
    {parameters parameters' : Parameters} (h : IsBinding signature arguments parameters)
    (h' : IsBinding signature arguments' parameters')
    (hargs : ∀ id ∈ signature.ids, arguments'[id]? = arguments[id]?) :
    parameters' = parameters := by
  apply Std.ExtTreeMap.ext_getElem?
  intro name
  by_cases hmem : name ∈ signature.names
  · obtain ⟨k, hk, hlast⟩ := exists_last_position signature.names name hmem
    obtain ⟨id, default, hid, hdefault, hvalue⟩ := h.value k name hk hlast
    obtain ⟨id', default', hid', hdefault', hvalue'⟩ := h'.value k name hk hlast
    rw [hid, Option.some.injEq] at hid'
    rw [hdefault, Option.some.injEq] at hdefault'
    subst hid' hdefault'
    rw [hvalue, hvalue', hargs id (List.mem_of_getElem? hid)]
  · rw [Std.ExtTreeMap.getElem?_eq_none (mt (h.mem_iff name).mp hmem),
      Std.ExtTreeMap.getElem?_eq_none (mt (h'.mem_iff name).mp hmem)]

/-- Each name of a signature with the value it gets, in order. -/
def suppliedValues (args : Arguments) (signature : Signature) : List (String × Value) :=
  (signature.names.zip (signature.ids.zip signature.defaults)).map fun (name, id, default) =>
    (name, (args.values[id]?).getD default)

private theorem bind_foldl (args : Arguments) (l : List (String × String × Value)) (f : Frame)
    (parameters : Parameters) :
    l.foldl (fun f (name, id, default) => bindOne args f name id default)
        { f with parameters := some parameters } =
      { f with parameters := some (l.foldl
        (fun m (name, id, default) => m.insert name ((args.values[id]?).getD default))
        parameters) } := by
  induction l generalizing parameters with
  | nil => rfl
  | cons p l ih => exact ih _

theorem bindAll_eq (args : Arguments) (signature : Signature) (f : Frame) :
    bindAll args signature f =
      { f with parameters := some (.ofList (suppliedValues args signature)) } := by
  rw [bindAll, Frame.clearParameters, bind_foldl, suppliedValues, Std.ExtTreeMap.ofList_eq_foldl,
    List.foldl_map]

theorem isBinding_suppliedValues (args : Arguments) (signature : Signature)
    (hids : signature.names.length = signature.ids.length)
    (hdefaults : signature.defaults.length = signature.ids.length) :
    IsBinding signature args.values (.ofList (suppliedValues args signature)) := by
  have hfst : (suppliedValues args signature).map Prod.fst = signature.names := by
    rw [suppliedValues, List.map_map]
    exact List.map_fst_zip (by simp [List.length_zip]; omega)
  constructor
  · intro name
    rw [Std.ExtTreeMap.mem_ofList, hfst, List.contains_iff_mem]
  · intro k name hk hlast
    have hlt : k < signature.names.length := (List.getElem?_eq_some_iff.mp hk).1
    have hid := List.getElem?_eq_getElem (show k < signature.ids.length by omega)
    have hdefault := List.getElem?_eq_getElem (show k < signature.defaults.length by omega)
    refine ⟨_, _, hid, hdefault, getElem?_ofList_of_last _ k name _ ?_ (by rwa [hfst])⟩
    have hzip : (signature.names.zip (signature.ids.zip signature.defaults))[k]? =
        some (name, signature.ids[k], signature.defaults[k]) :=
      List.getElem?_zip_eq_some.mpr ⟨hk, List.getElem?_zip_eq_some.mpr ⟨hid, hdefault⟩⟩
    simp [suppliedValues, hzip]

/-! ## The scene of a bound call -/

theorem aligned_of_scene_signature? {s : Scene} {code : String} {signature : Signature}
    (h : s.signature? code = some signature) :
    signature.names.length = signature.ids.length ∧
      signature.defaults.length = signature.ids.length := by
  obtain ⟨_, _, h⟩ := Option.bind_eq_some_iff.mp h
  exact Blocks.aligned_of_signature? h

/-- What a call has to find, and the scene in which it is bound. -/
theorem bind?_eq_some_iff (args : Arguments) (s : Scene) (code : String) (bound : Scene) :
    bind? args s = some (code, bound) ↔
      ∃ entry below signature, s.thread.stack = entry :: below ∧ entry.frame.executed = false ∧
        args.code? = some code ∧ s.signature? code = some signature ∧
        bound = s.mapThread fun t => { t with
          stack := { entry with frame := bindAll args signature entry.frame } :: below } := by
  cases hstack : s.thread.stack with
  | nil => simp [bind?, Thread.topFrame?, hstack]
  | cons entry below =>
    have htop (f : Frame → Frame) : s.mapThread (·.modifyTop f) =
        s.mapThread fun t => { t with
          stack := { entry with frame := f entry.frame } :: below } := by
      simp [Scene.mapThread, Thread.modifyTop, hstack]
    simp only [bind?, Thread.topFrame?, hstack, List.head?_cons, Option.map_some,
      Option.bind_eq_bind, Option.bind_some, htop]
    constructor
    · intro h
      split at h
      · cases h
      · next hfresh =>
        obtain ⟨code', hcode, h⟩ := Option.bind_eq_some_iff.mp h
        obtain ⟨signature, hsig, h⟩ := Option.bind_eq_some_iff.mp h
        cases h
        exact ⟨entry, below, signature, rfl, by simpa using hfresh, hcode, hsig, rfl⟩
    · rintro ⟨entry', below', signature, hcons, hfresh, hcode, hsig, rfl⟩
      cases hcons
      simp [hfresh, hcode, hsig]

/-! ## Calls -/

/-- An addon that also logs its runs, with the parameters and the scene of each. -/
def logged (addon : Addon σ) : Addon (List (Parameters × Scene) × σ) :=
  fun parameters ((log, host), s) =>
    let (result, host, after) := addon parameters (host, s)
    (result, (log ++ [(parameters, s)], host), after)

theorem parameters_of_top {t : Thread} {entry : Entry} {below : List Entry}
    {parameters : Parameters} (hstack : t.stack = entry :: below)
    (hown : entry.frame.parameters = some parameters) : t.parameters = parameters := by
  simp [Thread.parameters, Thread.scope?, hstack, hown]

theorem blocks_markExecuted (s : Scene) :
    (markExecuted s).thread.stack.map Entry.block = s.thread.stack.map Entry.block := by
  cases hstack : s.thread.stack <;> simp [markExecuted, Scene.mapThread, Thread.modifyTop, hstack]

/-- **Binding.** A call that is not executed and that the current target knows binds the parameters
of the signature on the top frame and changes nothing else. Two calls with one signature and the
same arguments under its ids bind the same, whatever else differs. Then the addon runs once on that
scene with those parameters and gives the result, with no body beside it; without an addon there is
no result, and the body starts from that scene. -/
theorem call_binds_parameters (args : Arguments) (s : Scene) (entry : Entry) (below : List Entry)
    (code : String) (signature : Signature) (hstack : s.thread.stack = entry :: below)
    (hfresh : entry.frame.executed = false) (hcode : args.code? = some code)
    (hsig : s.signature? code = some signature) :
    ∃ parameters bound,
      bind? args s = some (code, bound) ∧
      bound = { s with thread := { s.thread with stack :=
        { entry with frame := { entry.frame with parameters := some parameters } } :: below } } ∧
      IsBinding signature args.values parameters ∧
      (∀ args' s' code' bound', bind? args' s' = some (code', bound') →
        s'.signature? code' = some signature →
        (∀ id ∈ signature.ids, args'.values[id]? = args.values[id]?) →
        bound'.thread.topFrame?.bind Frame.parameters = some parameters) ∧
      ∀ (σ : Type) (host : σ),
        (∀ addons : Named (Addon σ), addons[code]? = none →
          call addons args host s = (none, host, (markExecuted bound).startProcedure code)) ∧
        (∀ (addons : Named (Addon σ)) addon, addons[code]? = some addon →
          ∃ result host' after final, addon parameters (host, bound) = (result, host', after) ∧
            call addons args host s = (result, host', final) ∧ final.project = after.project ∧
            final.thread.status = after.thread.status ∧
            final.thread.stack.map Entry.block = after.thread.stack.map Entry.block) ∧
        ∀ (addons : Named (Addon (List (Parameters × Scene) × σ))) addon log,
          addons[code]? = some (logged addon) →
            (call addons args (log, host) s).2.1.1 = log ++ [(parameters, bound)] := by
  obtain ⟨hids, hdefaults⟩ := aligned_of_scene_signature? hsig
  have hbinding := isBinding_suppliedValues args signature hids hdefaults
  obtain ⟨bound, hbound⟩ : ∃ bound, bound = s.mapThread fun t => { t with
    stack := { entry with frame := bindAll args signature entry.frame } :: below } := ⟨_, rfl⟩
  have hbind : bind? args s = some (code, bound) :=
    (bind?_eq_some_iff args s code bound).mpr
      ⟨entry, below, signature, hstack, hfresh, hcode, hsig, hbound⟩
  have hparams : bound.thread.parameters = .ofList (suppliedValues args signature) := by
    rw [hbound]
    exact parameters_of_top rfl (by rw [bindAll_eq])
  refine ⟨_, bound, hbind, ?_, hbinding, ?_, ?_⟩
  · rw [hbound, bindAll_eq]
    rfl
  · intro args' s' code' bound' hbind' hsig' hargs
    obtain ⟨entry', below', signature', _, _, _, hsig'', rfl⟩ :=
      (bind?_eq_some_iff args' s' code' bound').mp hbind'
    rw [hsig', Option.some.injEq] at hsig''
    subst hsig''
    have hbinding' := isBinding_suppliedValues args' signature hids hdefaults
    simp [Thread.topFrame?, Scene.mapThread, bindAll_eq, hbinding.unique hbinding' hargs]
  · intro σ host
    refine ⟨?_, ?_, ?_⟩
    · intro addons hnone
      simp [call, hbind, hnone]
    · intro addons addon hsome
      refine ⟨_, _, _, _, rfl, by simp only [call, hbind, hsome, hparams]; rfl, ?_⟩
      split
      · exact ⟨rfl, rfl, blocks_markExecuted _⟩
      · exact ⟨rfl, rfl, rfl⟩
    · intro addons addon log hsome
      simp [call, hbind, hsome, hparams, logged]

end Procedure

/-- A scene of one target, with the given blocks and stack. -/
def soloScene (blocks : Named Block) (stack : List Entry) : Scene where
  project := { targets := [{
    id := "Cat", name := "Cat", isStage := false, blocks := .ofNamed blocks, costumes := [],
    state := {} }] }
  thread := { home := "Cat", topBlock := none, stack }

namespace Procedure

/-- A call whose signature names a parameter twice, on a frame with old parameters. -/
def repeatedName : Scene :=
  let prototype : Block := {
    opcode := prototypeOpcode
    mutation := some {
      code := some "foo %s %s", argumentIds := some "[\"p\",\"q\"]"
      argumentNames := some "[\"x\",\"x\"]", argumentDefaults := some "[\"d\"]" } }
  soloScene (.ofList [("proto", prototype)]) [{
    block := some "call", frame := { parameters := some (.ofList [("y", Value.bool true)]) } }]

def repeatedNameArguments : Arguments where
  values := .ofList [("p", Value.text "5"), ("z", Value.text "6")]
  mutation := some { code := some "foo %s %s" }

theorem call_binds_parameters_repeatedName :
    ∃ signature parameters bound,
      repeatedName.signature? "foo %s %s" = some signature ∧
        (signature.names, signature.ids, signature.defaults.map Value.display) =
          (["x", "x"], ["p", "q"], ["d", ""]) ∧
        bind? repeatedNameArguments repeatedName = some ("foo %s %s", bound) ∧
        IsBinding signature repeatedNameArguments.values parameters ∧
        call (∅ : Named (Addon Unit)) repeatedNameArguments () repeatedName =
          (none, (), (markExecuted bound).startProcedure "foo %s %s") := by
  have hparts : (repeatedName.signature? "foo %s %s").map
      (fun s => (s.names, s.ids, s.defaults.map Value.display)) =
        some (["x", "x"], ["p", "q"], ["d", ""]) := by
    decide +kernel
  obtain ⟨signature, hsig, hlists⟩ := Option.map_eq_some_iff.mp hparts
  obtain ⟨parameters, bound, hbind, _, hbinding, _, hrun⟩ :=
    call_binds_parameters repeatedNameArguments repeatedName _ [] "foo %s %s" signature rfl rfl rfl
      hsig
  exact ⟨signature, parameters, bound, hsig, hlists, hbind, hbinding, (hrun Unit ()).1 ∅ (by simp)⟩

/-- The last position of `x` counts, and no argument stands under its id. -/
example : ((bind? repeatedNameArguments repeatedName).bind fun (_, bound) =>
    (bound.thread.parameter? "x").map Value.display) = some "" := by
  decide +kernel

end Procedure

end BlockStage
