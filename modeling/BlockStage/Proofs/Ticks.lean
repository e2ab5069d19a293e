import Mathlib.Data.List.Perm.Basic
import BlockStage.Proofs.StateChanges

/-!
What a tick does to one body and its target. Bodies share the walls and the gravity, which no tick
changes, and nothing else: each one fares as it would in a world of its own.
-/

namespace BlockStage.Physics

/-! ## A body in a tick -/

namespace Body

@[simp] theorem shape_follow (b : Body Float) (s : TargetState) :
    (b.follow s).shape = b.shape := rfl

@[simp] theorem follow_follow (b : Body Float) (s : TargetState) :
    (b.follow s).follow s = b.follow s := rfl

theorem shape_pushOut {α : Type} [Coordinate α] (b : Body α) (wall : Wall α) :
    (b.pushOut wall).shape = b.shape := by
  simp only [pushOut]
  split
  · rfl
  · split <;> rfl

theorem shape_foldl_pushOut {α : Type} [Coordinate α] (walls : List (Wall α)) (b : Body α) :
    (walls.foldl pushOut b).shape = b.shape := by
  induction walls generalizing b with
  | nil => rfl
  | cons wall walls ih => rw [List.foldl_cons, ih, shape_pushOut]

theorem shape_step (acceleration : Vec Float) (walls : List (Wall Float)) (b : Body Float) :
    (b.step acceleration walls).shape = b.shape := shape_foldl_pushOut walls _

/-- A body takes its target to another place and direction. -/
theorem exists_place (b : Body Float) (s : TargetState) :
    ∃ x y direction, b.place s = { s with x, y, direction } := by
  unfold place TargetState.turnTo
  split
  · exact ⟨_, _, _, rfl⟩
  · exact ⟨_, _, _, rfl⟩

end Body

namespace World

variable {w : World} {p : Project} {ids : List String} {id k : String}

/-! ## To the targets -/

/-- The body of a target where the target is, if both are there. -/
def followed? (w : World) (p : Project) (id : String) : Option (Body Float) :=
  (p.target? id).bind fun t => (w.body? id).map (·.follow t.state)

theorem followTarget_eq : followTarget p w id = w.setBody id (w.followed? p id) := by
  unfold followTarget followed?
  cases p.target? id with
  | none => exact erase_eq_setBody
  | some t => exact modifyBody_eq_setBody _

theorem follow_cons (w : World) (id : String) (ids : List String) :
    w.follow (id :: ids) p = (w.setBody id (w.followed? p id)).follow ids p := by
  rw [follow, List.foldl_cons, followTarget_eq, follow]

@[simp] theorem gravity_follow : (w.follow ids p).gravity = w.gravity := by
  induction ids generalizing w with
  | nil => rfl
  | cons id ids ih => rw [follow_cons, ih, gravity_setBody]

@[simp] theorem walls_follow : (w.follow ids p).walls = w.walls := by
  induction ids generalizing w with
  | nil => rfl
  | cons id ids ih => rw [follow_cons, ih, walls_setBody]

theorem body?_follow :
    (w.follow ids p).body? k = if k ∈ ids then w.followed? p k else w.body? k := by
  induction ids generalizing w with
  | nil => rfl
  | cons id ids ih =>
    rw [follow_cons, ih]
    by_cases hk : id = k
    · subst hk
      -- following twice is following once
      cases ht : p.target? id <;> simp [followed?, body?_setBody, ht, Function.comp_def]
    · simp [followed?, body?_setBody, hk, Ne.symm hk]

theorem follow_perm {order : List String} (horder : order.Perm ids) :
    w.follow order p = w.follow ids p :=
  ext_body? (by simp) (by simp) fun id => by simp only [body?_follow, horder.mem_iff]

/-! ## Back to the targets -/

/-- The state of a target that has been taken to where its body is. -/
def placing (w : World) (id : String) (s : TargetState) : TargetState :=
  match w.body? id with
  | none => s
  | some b => b.place s

theorem placing_of_body? {b : Body Float} (h : w.body? id = some b) : w.placing id = b.place := by
  funext s
  rw [placing, h]

theorem placing_of_none (h : w.body? id = none) : w.placing id = fun s => s := by
  funext s
  rw [placing, h]

theorem exists_placing (w : World) (id : String) (s : TargetState) :
    ∃ x y direction, w.placing id s = { s with x, y, direction } := by
  unfold placing
  split
  · exact ⟨s.x, s.y, s.direction, rfl⟩
  · next b _ => exact b.exists_place s

theorem placeTarget_eq : w.placeTarget p id = p.modifyState id (w.placing id) := by
  unfold placeTarget
  cases h : w.body? id with
  | none => rw [placing_of_none h, Project.modifyState_id]
  | some b => rw [placing_of_body? h]

theorem placeTarget_comm (p : Project) (id k : String) :
    w.placeTarget (w.placeTarget p id) k = w.placeTarget (w.placeTarget p k) id := by
  by_cases hk : k = id
  · rw [hk]
  · simp only [placeTarget_eq]
    exact p.modifyState_comm _ hk _

/-- A target where its body is. -/
def placed (w : World) (t : Target) : Target := { t with state := w.placing t.id t.state }

theorem place_cons (p : Project) (id : String) (ids : List String) :
    w.place (id :: ids) p = w.place ids (p.modifyState id (w.placing id)) := by
  rw [place, List.foldl_cons, placeTarget_eq, place]

@[simp] theorem config_place : (w.place ids p).config = p.config := by
  induction ids generalizing p with
  | nil => rfl
  | cons id ids ih => rw [place_cons, ih, Project.config_modifyState]

@[simp] theorem length_targets_place : (w.place ids p).targets.length = p.targets.length := by
  induction ids generalizing p with
  | nil => rfl
  | cons id ids ih => rw [place_cons, ih, Project.modifyState, length_modifyLast]

theorem target?_place (hids : ids.Nodup) :
    (w.place ids p).target? k =
      if k ∈ ids then (p.target? k).map w.placed else p.target? k := by
  induction ids generalizing p with
  | nil => rfl
  | cons id ids ih =>
    obtain ⟨hid, hrest⟩ := List.nodup_cons.mp hids
    rw [place_cons, ih hrest]
    by_cases hk : id = k
    · subst hk
      rw [if_neg hid, if_pos List.mem_cons_self, Project.target?_modifyState]
      refine Option.map_congr fun t ht => ?_
      rw [placed, Project.id_of_target? ht]
    · rw [p.target?_modifyState_of_ne _ hk]
      simp [Ne.symm hk]

theorem getElem?_place (hids : ids.Nodup) (i : Nat) :
    (w.place ids p).targets[i]? =
      p.targets[i]?.map fun t => if t.id ∈ ids ∧ t.id ∉ p.idsAfter i then w.placed t else t := by
  induction ids generalizing p with
  | nil => simp [place]
  | cons id ids ih =>
    obtain ⟨hid, hrest⟩ := List.nodup_cons.mp hids
    rw [place_cons, ih hrest, Project.getElem?_modifyState, Project.idsAfter_modifyState,
      Option.map_map]
    congr 1
    funext t
    by_cases ht : t.id = id
    · subst ht
      by_cases hlast : t.id ∈ p.idsAfter i
      · simp [hlast]
      · simp [hlast, hid, placed]
    · simp [ht]

theorem place_perm {order : List String} (horder : order.Perm ids) :
    w.place order p = w.place ids p :=
  horder.foldl_eq' (fun id _ k _ p => placeTarget_comm p id k) p

/-! ## A whole tick -/

theorem body?_step (delta : Float) :
    (w.step delta).body? k = (w.body? k).map (·.step (w.acceleration delta) w.walls) :=
  Std.ExtTreeMap.getElem?_map

/-- The order in which a tick takes the bodies does not matter. -/
theorem tickInTurn_perm {order : List String} (horder : order.Perm ids) :
    tickInTurn order w p = tickInTurn ids w p := by
  simp only [tickInTurn, follow_perm horder, place_perm horder]

theorem body?_of_not_mem_keys (hk : k ∉ w.bodies.keys) : w.body? k = none :=
  Std.ExtTreeMap.getElem?_eq_none fun hmem => hk (Std.ExtTreeMap.mem_keys.mpr hmem)

/-- What becomes of a body depends on nothing but the body, its target, gravity and walls. -/
theorem body?_tick :
    (w.tick p).1.body? k =
      (w.followed? p k).map (·.step (w.acceleration (stepLength p.config)) w.walls) := by
  have hfollow : (w.follow w.bodies.keys p).body? k = w.followed? p k := by
    rw [body?_follow]
    by_cases hk : k ∈ w.bodies.keys
    · rw [if_pos hk]
    · rw [if_neg hk, followed?, body?_of_not_mem_keys hk]
      cases p.target? k <;> rfl
  have hacceleration (delta : Float) :
      (w.follow w.bodies.keys p).acceleration delta = w.acceleration delta := by
    rw [acceleration, gravity_follow, acceleration]
  rw [tick, tickInTurn, body?_step, hfollow, hacceleration, walls_follow]

/-- A tick makes no bodies. -/
theorem body?_tick_of_not_mem_keys (hk : k ∉ w.bodies.keys) : (w.tick p).1.body? k = none := by
  rw [body?_tick, followed?, body?_of_not_mem_keys hk]
  cases p.target? k <;> rfl

theorem project_tick : (w.tick p).2 = (w.tick p).1.place w.bodies.keys p := rfl

/-- What becomes of a target depends on nothing but the target and what becomes of its body. -/
theorem target?_tick : (w.tick p).2.target? k = (p.target? k).map (w.tick p).1.placed := by
  rw [project_tick, target?_place Std.ExtTreeMap.nodup_keys]
  by_cases hk : k ∈ w.bodies.keys
  · rw [if_pos hk]
  · rw [if_neg hk]
    cases ht : p.target? k with
    | none => rfl
    | some t =>
      have hgone : (w.tick p).1.body? t.id = none := by
        rw [Project.id_of_target? ht, body?_tick_of_not_mem_keys hk]
      rw [Option.map_some, placed, placing_of_none hgone]

/-- Two ticks that leave the same body for a target leave the same target. -/
theorem target?_tick_congr {v : World} (h : (v.tick p).1.body? k = (w.tick p).1.body? k) :
    (v.tick p).2.target? k = (w.tick p).2.target? k := by
  rw [target?_tick, target?_tick]
  refine Option.map_congr fun t ht => ?_
  rw [placed, placed, placing, placing, Project.id_of_target? ht, h]

/-- Two worlds with one gravity, the same walls and the same body for a target do the same to it,
whatever other bodies they hold. -/
theorem tick_congr {v : World} (hgravity : v.gravity = w.gravity) (hwalls : v.walls = w.walls)
    (hbody : v.body? k = w.body? k) :
    (v.tick p).1.body? k = (w.tick p).1.body? k ∧
      (v.tick p).2.target? k = (w.tick p).2.target? k := by
  have hafter : (v.tick p).1.body? k = (w.tick p).1.body? k := by
    simp only [body?_tick, followed?, acceleration, hgravity, hwalls, hbody]
  exact ⟨hafter, target?_tick_congr hafter⟩

/-- The world with only one of the bodies. -/
def alone (w : World) (id : String) (b : Body Float) : World :=
  { w with bodies := (∅ : Named (Body Float)).insert id b }

/-- A tick of the world treats each body as if there were no other. -/
structure TicksApart (w : World) (p : Project) : Prop where
  survivors (id : String) :
    id ∈ (w.tick p).1.bodies ↔ id ∈ w.bodies ∧ (p.target? id).isSome
  gravity : (w.tick p).1.gravity = w.gravity
  walls : (w.tick p).1.walls = w.walls
  shape {id : String} {b after : Body Float} : w.body? id = some b →
    (w.tick p).1.body? id = some after → after.shape = b.shape
  config : (w.tick p).2.config = p.config
  size : (w.tick p).2.targets.length = p.targets.length
  /-- An entry that no body stands for stays as it is. -/
  others {i : Nat} {t : Target} : p.targets[i]? = some t →
    (∀ id ∈ w.bodies, ¬ p.Finds id i t) → (w.tick p).2.targets[i]? = some t
  /-- Whatever an entry changes in, it is place and direction. -/
  moved {i : Nat} {t : Target} : p.targets[i]? = some t → ∃ x y direction,
    (w.tick p).2.targets[i]? = some { t with state := { t.state with x, y, direction } }
  alone {id : String} {b : Body Float} : w.body? id = some b →
    (w.tick p).1.body? id = ((w.alone id b).tick p).1.body? id ∧
      (w.tick p).2.target? id = ((w.alone id b).tick p).2.target? id
  /-- Other bodies may be there or not. -/
  company {v : World} {id : String} : v.gravity = w.gravity → v.walls = w.walls →
    v.body? id = w.body? id → (v.tick p).1.body? id = (w.tick p).1.body? id ∧
      (v.tick p).2.target? id = (w.tick p).2.target? id
  order {ids : List String} : ids.Perm w.bodies.keys → tickInTurn ids w p = w.tick p

/-- **Bodies do not influence each other.** Every tick of every world treats each body apart. -/
theorem tick_apart (w : World) (p : Project) : w.TicksApart p where
  survivors id := by
    have hmem (v : World) : id ∈ v.bodies ↔ (v.body? id).isSome :=
      Std.ExtTreeMap.mem_iff_isSome_getElem?
    rw [hmem, hmem, body?_tick, followed?]
    cases p.target? id <;> simp
  gravity := gravity_follow
  walls := walls_follow
  shape {id b after} hb hafter := by
    rw [body?_tick, followed?, hb] at hafter
    obtain ⟨followed, hfollowed, rfl⟩ := Option.map_eq_some_iff.mp hafter
    obtain ⟨t, -, hfollow⟩ := Option.bind_eq_some_iff.mp hfollowed
    obtain rfl := Option.some.inj hfollow
    rw [Body.shape_step, Body.shape_follow]
  config := config_place
  size := length_targets_place
  others {i t} hentry hother := by
    rw [project_tick, getElem?_place Std.ExtTreeMap.nodup_keys, hentry, Option.map_some, if_neg]
    rintro ⟨hbody, hlast⟩
    exact hother t.id (Std.ExtTreeMap.mem_keys.mp hbody)
      (Project.finds_of_not_mem_idsAfter hentry hlast)
  moved {i t} hentry := by
    rw [project_tick, getElem?_place Std.ExtTreeMap.nodup_keys, hentry, Option.map_some]
    split
    · obtain ⟨x, y, direction, h⟩ := (w.tick p).1.exists_placing t.id t.state
      exact ⟨x, y, direction, by rw [placed, h]⟩
    · exact ⟨t.state.x, t.state.y, t.state.direction, rfl⟩
  alone {id b} hb := by
    refine tick_congr rfl rfl ?_
    rw [hb, alone, body?, Std.ExtTreeMap.getElem?_insert_self]
  company := tick_congr
  order := tickInTurn_perm

end World

end BlockStage.Physics
