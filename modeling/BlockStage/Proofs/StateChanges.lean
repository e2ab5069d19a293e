import BlockStage.Physics.World
import BlockStage.Proofs.TargetIndex

/-!
Changes under an id, of the state of a target or of its body. Such a change reaches one entry of the
project or one body of the world at most, and changes under two ids do not meet.
-/

namespace BlockStage

/-! ## Changing the last element that satisfies a predicate -/

section

variable {α β : Type} {p q : α → Bool} {f g : α → α}

theorem modifyLast_cons (p : α → Bool) (f : α → α) (a : α) (as : List α) :
    modifyLast p f (a :: as) =
      (if p a && !as.any p then f a else a) :: modifyLast p f as := by
  cases hany : as.any p with
  | true => simp [modifyLast, hany]
  | false =>
    rw [modifyLast, if_neg (by simp [hany]), modifyLast_of_none f hany]
    cases p a <;> rfl

/-- What the change leaves of an element, it leaves all over the list. -/
theorem map_modifyLast (view : α → β) (hview : ∀ a, view (f a) = view a) (as : List α) :
    (modifyLast p f as).map view = as.map view := by
  induction as with
  | nil => rfl
  | cons a as ih =>
    rw [modifyLast_cons, List.map_cons, List.map_cons, ih]
    split
    · rw [hview]
    · rfl

theorem any_modifyLast (hf : ∀ a, q (f a) = q a) (as : List α) :
    (modifyLast p f as).any q = as.any q := by
  have h := congrArg (List.any · id) (map_modifyLast (p := p) q hf as)
  rwa [List.any_map, List.any_map] at h

/-- An element changes if it satisfies the predicate and none after it does. -/
theorem getElem?_modifyLast (p : α → Bool) (f : α → α) (as : List α) (i : Nat) :
    (modifyLast p f as)[i]? =
      as[i]?.map fun a => if p a && !(as.drop (i + 1)).any p then f a else a := by
  induction as generalizing i with
  | nil => rfl
  | cons a as ih =>
    rw [modifyLast_cons]
    cases i with
    | zero => simp
    | succ i => rw [List.getElem?_cons_succ, List.getElem?_cons_succ, ih, List.drop_succ_cons]

section Disjoint

variable (hpq : ∀ a, p a = true → q a = false)
include hpq

theorem modifyLast_comm (hf : ∀ a, q (f a) = q a) (hg : ∀ a, p (g a) = p a) (as : List α) :
    modifyLast p f (modifyLast q g as) = modifyLast q g (modifyLast p f as) := by
  induction as with
  | nil => rfl
  | cons a as ih =>
    have hdisjoint := hpq a
    simp only [modifyLast_cons, any_modifyLast hf, any_modifyLast hg, ih]
    congr 1
    -- one of the two predicates leaves the element alone
    cases hp : p a <;> cases hq : q a <;> cases as.any p <;> cases as.any q <;> simp_all

theorem find?_reverse_modifyLast_of_disjoint (hf : ∀ a, q (f a) = q a) (as : List α) :
    (modifyLast p f as).reverse.find? q = as.reverse.find? q := by
  induction as with
  | nil => rfl
  | cons a as ih =>
    rw [modifyLast_cons, List.reverse_cons, List.reverse_cons, List.find?_append,
      List.find?_append, ih]
    congr 1
    cases hp : p a with
    | false => simp
    | true => split <;> simp [hf, hpq a hp]

end Disjoint

end

/-! ## Changing the state of a target -/

namespace Project

variable (p : Project) (id : String) (f : TargetState → TargetState)

@[simp] theorem config_modifyState : (p.modifyState id f).config = p.config := rfl

@[simp] theorem modifyState_id : p.modifyState id (fun state => state) = p := by
  have h (ts : List Target) : modifyLast (·.id == id) (fun t => t) ts = ts := by
    induction ts with
    | nil => rfl
    | cons t ts ih => rw [modifyLast_cons, ite_self, ih]
  exact congrArg (Project.mk p.config) (h p.targets)

variable {id} {k : String}

private theorem id_ne_of_ne (hne : id ≠ k) (t : Target) (ht : (t.id == id) = true) :
    (t.id == k) = false := by
  rw [eq_of_beq ht]
  exact beq_false_of_ne hne

theorem target?_modifyState_of_ne (hne : id ≠ k) : (p.modifyState id f).target? k = p.target? k :=
  find?_reverse_modifyLast_of_disjoint (f := fun t : Target => { t with state := f t.state })
    (id_ne_of_ne hne) (fun _ => rfl) p.targets

theorem modifyState_comm (hne : id ≠ k) (g : TargetState → TargetState) :
    (p.modifyState k g).modifyState id f = (p.modifyState id f).modifyState k g :=
  congrArg (Project.mk p.config)
    (modifyLast_comm (f := fun t : Target => { t with state := f t.state })
      (g := fun t : Target => { t with state := g t.state })
      (id_ne_of_ne hne) (fun _ => rfl) (fun _ => rfl) p.targets)

/-- The ids of the entries after entry `i`. -/
def idsAfter (i : Nat) : List String := (p.targets.map Target.id).drop (i + 1)

@[simp] theorem idsAfter_modifyState (i : Nat) :
    (p.modifyState id f).idsAfter i = p.idsAfter i := by
  have h := map_modifyLast (p := (·.id == id))
    (f := fun t : Target => { t with state := f t.state }) Target.id (fun _ => rfl) p.targets
  exact congrArg (List.drop (i + 1)) h

/-- A change under an id reaches an entry that has it, if no later entry has it too. -/
theorem getElem?_modifyState (i : Nat) :
    (p.modifyState id f).targets[i]? =
      p.targets[i]?.map fun t =>
        if t.id = id ∧ id ∉ p.idsAfter i then { t with state := f t.state } else t := by
  rw [modifyState, getElem?_modifyLast]
  congr 1
  funext t
  have hlast : (!(p.targets.drop (i + 1)).any (·.id == id)) = true ↔ id ∉ p.idsAfter i := by
    simp [idsAfter, ← List.map_drop]
  simp only [Bool.and_eq_true, beq_iff_eq, hlast]

theorem finds_of_not_mem_idsAfter {p : Project} {i : Nat} {t : Target}
    (hentry : p.targets[i]? = some t) (hlast : t.id ∉ p.idsAfter i) : p.Finds t.id i t := by
  obtain ⟨before, after, hsplit, rfl⟩ := exists_split_of_getElem? hentry
  refine finds_of_last hsplit fun u hu hid => hlast ?_
  rw [idsAfter, ← List.map_drop, hsplit, List.drop_length_add_append, ← hid]
  exact List.mem_map_of_mem (by simpa using hu)

end Project

/-! ## Changing the body of a target -/

namespace Physics.World

variable {v w : World} {id k : String}

theorem ext_body? (hgravity : v.gravity = w.gravity) (hwalls : v.walls = w.walls)
    (hbodies : ∀ id, v.body? id = w.body? id) : v = w := by
  obtain ⟨gravity, bodies, walls⟩ := v
  obtain rfl : bodies = w.bodies := Std.ExtTreeMap.ext_getElem? hbodies
  cases hgravity
  cases hwalls
  rfl

/-- Gives a target a body in place of the one that it had, or takes that away. -/
def setBody (w : World) (id : String) (body : Option (Body Float)) : World :=
  { w with bodies := w.bodies.alter id fun _ => body }

@[simp] theorem gravity_setBody (body : Option (Body Float)) :
    (w.setBody id body).gravity = w.gravity := rfl

@[simp] theorem walls_setBody (body : Option (Body Float)) :
    (w.setBody id body).walls = w.walls := rfl

theorem body?_setBody (body : Option (Body Float)) :
    (w.setBody id body).body? k = if id = k then body else w.body? k := by
  rw [body?, setBody, Std.ExtTreeMap.getElem?_alter, body?]
  simp only [Std.LawfulEqCmp.compare_eq_iff_eq]

theorem body?_setBody_of_ne (body : Option (Body Float)) (hne : id ≠ k) :
    (w.setBody id body).body? k = w.body? k := by
  rw [body?_setBody, if_neg hne]

theorem setBody_comm (hne : id ≠ k) (b c : Option (Body Float)) :
    (w.setBody id b).setBody k c = (w.setBody k c).setBody id b := by
  refine ext_body? rfl rfl fun j => ?_
  simp only [body?_setBody]
  by_cases hj : id = j
  · rw [if_pos hj, if_pos hj, if_neg (fun hk => hne (hj.trans hk.symm))]
  · rw [if_neg hj, if_neg hj]

/-! The operations on bodies in these terms. -/

theorem eq_setBody_self (w : World) (id : String) : w = w.setBody id (w.body? id) :=
  ext_body? rfl rfl fun j => by
    rw [body?_setBody]
    split <;> simp_all

theorem insert_eq_setBody (b : Body Float) :
    { w with bodies := w.bodies.insert id b } = w.setBody id (some b) :=
  ext_body? rfl rfl fun j => by
    rw [body?_setBody, body?, body?, Std.ExtTreeMap.getElem?_insert]
    simp only [Std.LawfulEqCmp.compare_eq_iff_eq]

theorem erase_eq_setBody :
    { w with bodies := w.bodies.erase id } = w.setBody id none :=
  ext_body? rfl rfl fun j => by
    rw [body?_setBody, body?, body?, Std.ExtTreeMap.getElem?_erase]
    simp only [Std.LawfulEqCmp.compare_eq_iff_eq]

theorem modifyBody_eq_setBody (f : Body Float → Body Float) :
    w.modifyBody id f = w.setBody id ((w.body? id).map f) :=
  ext_body? rfl rfl fun j => by
    rw [body?_setBody, modifyBody, body?, body?, body?, Std.ExtTreeMap.getElem?_modify]
    simp only [Std.LawfulEqCmp.compare_eq_iff_eq]

end Physics.World

end BlockStage
