import BlockStage.Target

/-!
Projects: the configuration of the stage and the targets in load order.
-/

namespace BlockStage

structure Config where
  width : UInt32 := 480
  height : UInt32 := 360
  frameRate : UInt32 := 30

def Config.display (c : Config) : String :=
  toString c.width.toNat ++ "x" ++ toString c.height.toNat ++ " @ " ++ toString c.frameRate.toNat ++
    " fps"

structure Project where
  config : Config := {}
  targets : List Target := []

/-- Changes the last element that satisfies `p`. -/
def modifyLast (p : α → Bool) (f : α → α) : List α → List α
  | [] => []
  | a :: as =>
    if as.any p then a :: modifyLast p f as
    else if p a then f a :: as
    else a :: as

@[simp] theorem length_modifyLast (p : α → Bool) (f : α → α) (as : List α) :
    (modifyLast p f as).length = as.length := by
  induction as with
  | nil => rfl
  | cons a as ih =>
    simp only [modifyLast]
    split
    · simp [ih]
    · split <;> simp

theorem modifyLast_of_none {p : α → Bool} {as : List α} (f : α → α) (h : as.any p = false) :
    modifyLast p f as = as := by
  cases as with
  | nil => rfl
  | cons a as =>
    simp only [List.any_cons, Bool.or_eq_false_iff] at h
    simp [modifyLast, h.1, h.2]

/-- The first of the reversed elements that satisfies `p` is the one that changes. -/
theorem find?_reverse_modifyLast (p : α → Bool) (f : α → α) (hf : ∀ a, p (f a) = p a)
    (as : List α) : (modifyLast p f as).reverse.find? p = (as.reverse.find? p).map f := by
  induction as with
  | nil => rfl
  | cons a as ih =>
    cases h : as.any p with
    | true =>
      obtain ⟨b, hb⟩ : ∃ b, as.reverse.find? p = some b := by
        rw [← Option.isSome_iff_exists, List.find?_isSome]
        simpa using h
      simp [modifyLast, h, List.find?_append, ih, hb]
    | false =>
      have none : as.reverse.find? p = none := by simpa using h
      cases ha : p a with
      | true => simp [modifyLast, h, ha, List.find?_append, none, hf]
      | false => simp [modifyLast, h, ha, List.find?_append, none]

namespace Project

/-- The target with an id: of several, the one loaded last. -/
def target? (p : Project) (id : String) : Option Target :=
  p.targets.reverse.find? (·.id == id)

/-- Changes the state of the target with an id, if there is one. -/
def modifyState (p : Project) (id : String) (f : TargetState → TargetState) : Project :=
  { p with targets := modifyLast (·.id == id) (fun t => { t with state := f t.state }) p.targets }

theorem id_of_target? {p : Project} {id : String} {t : Target} (h : p.target? id = some t) :
    t.id = id := by
  simpa using List.find?_some h

/-- After a change, the target with the id has the changed state. -/
theorem target?_modifyState (p : Project) (id : String) (f : TargetState → TargetState) :
    (p.modifyState id f).target? id =
      (p.target? id).map fun t => { t with state := f t.state } :=
  find?_reverse_modifyLast (fun t : Target => t.id == id)
    (fun t => { t with state := f t.state }) (fun _ => rfl) p.targets

end Project

end BlockStage
