import BlockStage.Proofs.FinitePositions
import BlockStage.Proofs.NotANumber
import BlockStage.Proofs.SpriteBlocks

/-!
Which walls push a body. A wall leaves a body alone that it is known to be apart from on one axis.
But an overlap that is no number is no ground to let a body be: if neither axis tells the two
apart, the body is pushed along the vertical axis, as if the overlap there were the lesser one.
Walls that a body clears, with numbers on both axes, have no part in a tick.
-/

namespace BlockStage

namespace Physics

/-! ## One wall -/

namespace Body

/-- A body and a wall overlap on both axes. -/
def Overlaps (b : Body Float) (wall : Wall Float) : Prop :=
  0 < (b.overlap wall).x ∧ 0 < (b.overlap wall).y

instance (b : Body Float) (wall : Wall Float) : Decidable (b.Overlaps wall) :=
  inferInstanceAs (Decidable (_ ∧ _))

/-- The wall changes place or speed of the body only if the two overlap. -/
def ActsOnOverlap (b : Body Float) (wall : Wall Float) : Prop :=
  (b.pushOut wall).position ≠ b.position ∨ (b.pushOut wall).velocity ≠ b.velocity →
    b.Overlaps wall

instance (b : Body Float) (wall : Wall Float) : Decidable (b.ActsOnOverlap wall) :=
  inferInstanceAs (Decidable (_ → _))

/-- An overlap is no number, and the other axis does not tell body and wall apart either. -/
structure Unclear (b : Body Float) (wall : Wall Float) : Prop where
  x : ¬ (b.overlap wall).x ≤ 0
  y : ¬ (b.overlap wall).y ≤ 0
  noNumber : (b.overlap wall).x.isNaN = true ∨ (b.overlap wall).y.isNaN = true

/-- How far the wall takes the body down if it pushes it along the vertical axis. -/
def pushY (b : Body Float) (wall : Wall Float) : Float :=
  Coordinate.copySign (b.overlap wall).y (b.offset wall).y

variable {b : Body Float} {wall : Wall Float}

/-- Body and wall are apart on an axis, or overlap, or nothing is known. -/
theorem apart_or_overlaps_or_unclear (b : Body Float) (wall : Wall Float) :
    ((b.overlap wall).x ≤ 0 ∨ (b.overlap wall).y ≤ 0) ∨ b.Overlaps wall ∨ b.Unclear wall := by
  by_cases hx : (b.overlap wall).x ≤ 0
  · exact .inl (.inl hx)
  by_cases hy : (b.overlap wall).y ≤ 0
  · exact .inl (.inr hy)
  cases hnanx : (b.overlap wall).x.isNaN with
  | true => exact .inr (.inr ⟨hx, hy, .inl hnanx⟩)
  | false =>
    cases hnany : (b.overlap wall).y.isNaN with
    | true => exact .inr (.inr ⟨hx, hy, .inr hnany⟩)
    | false =>
      have hposx := (Binary64.le_zero_or_zero_lt hnanx).resolve_left hx
      have hposy := (Binary64.le_zero_or_zero_lt hnany).resolve_left hy
      exact .inr (.inl ⟨hposx, hposy⟩)

theorem Unclear.not_overlaps (h : b.Unclear wall) : ¬ b.Overlaps wall := by
  rintro ⟨hx, hy⟩
  rcases h.noNumber with hnan | hnan
  · exact Binary64.not_lt_of_isNaN (.inr hnan) hx
  · exact Binary64.not_lt_of_isNaN (.inr hnan) hy

theorem pushOut_of_apart (h : (b.overlap wall).x ≤ 0 ∨ (b.overlap wall).y ≤ 0) :
    b.pushOut wall = b := if_pos h

theorem pushOut_of_unclear (h : b.Unclear wall) :
    b.pushOut wall = { b with
      position := ⟨b.position.x, b.position.y + b.pushY wall⟩, velocity := ⟨b.velocity.x, 0⟩ } := by
  have hapart : ¬ ((b.overlap wall).x ≤ 0 ∨ (b.overlap wall).y ≤ 0) := by
    rintro (hx | hy)
    · exact h.x hx
    · exact h.y hy
  have hless : ¬ (b.overlap wall).x < (b.overlap wall).y := Binary64.not_lt_of_isNaN h.noNumber
  exact (if_neg hapart).trans (if_neg hless)

/-- A wall acts on a body that it does not overlap exactly if the overlap is unclear and the push
has an effect. -/
theorem actsOnOverlap_iff (b : Body Float) (wall : Wall Float) :
    b.ActsOnOverlap wall ↔
      (b.Unclear wall → b.position.y + b.pushY wall = b.position.y ∧ b.velocity.y = 0) := by
  rcases apart_or_overlaps_or_unclear b wall with hapart | hoverlaps | hunclear
  · have hacts : b.ActsOnOverlap wall := by
      rw [ActsOnOverlap, pushOut_of_apart hapart]
      simp
    refine iff_of_true hacts fun hunclear => ?_
    rcases hapart with hx | hy
    · exact absurd hx hunclear.x
    · exact absurd hy hunclear.y
  · exact iff_of_true (fun _ => hoverlaps) fun hunclear => absurd hoverlaps hunclear.not_overlaps
  · rw [ActsOnOverlap, pushOut_of_unclear hunclear, imp_iff_right hunclear,
      imp_iff_not hunclear.not_overlaps, not_or, not_not, not_not]
    obtain ⟨shape, ⟨x, y⟩, ⟨vx, vy⟩, angle, spin⟩ := b
    simp [eq_comm]

/-! ### When an overlap is a number -/

/-- A body whose place on the horizontal axis is no number: with every wall that it is not known to
be apart from on the vertical axis, however far away, nothing is known. -/
theorem unclear_of_isNaN (h : b.position.x.isNaN = true) (hy : ¬ (b.overlap wall).y ≤ 0) :
    b.Unclear wall := by
  have hoffset : (b.offset wall).x.abs.isNaN = true := by
    rw [Binary64.isNaN_abs]
    exact Binary64.isNaN_sub (.inl h)
  have hoverlap : (b.overlap wall).x.isNaN = true := Binary64.isNaN_sub (.inr hoffset)
  exact ⟨Binary64.not_le_of_isNaN hoverlap 0, hy, .inl hoverlap⟩

/-- On an axis, body and wall are at finite places, and so is the distance at which they touch. -/
structure FiniteAlong (place center reach : Float) : Prop where
  place : place.isFinite = true
  center : center.isFinite = true
  reach : reach.isFinite = true

theorem FiniteAlong.isNaN_eq_false {place center reach : Float}
    (h : FiniteAlong place center reach) : (reach - (place - center).abs).isNaN = false := by
  refine Binary64.isNaN_sub_of_isFinite h.reach ?_
  rw [Binary64.isNaN_abs]
  exact (Binary64.sub_nearest h.place h.center).isNaN

/-- Body and wall are at finite places and of finite sizes. -/
structure FinitelyApart (b : Body Float) (wall : Wall Float) : Prop where
  x : FiniteAlong b.position.x wall.center.x (b.shape.halfExtents.x + wall.halfSize.x)
  y : FiniteAlong b.position.y wall.center.y (b.shape.halfExtents.y + wall.halfSize.y)

theorem FinitelyApart.not_unclear (h : b.FinitelyApart wall) : ¬ b.Unclear wall := by
  intro hunclear
  have hx : (b.overlap wall).x.isNaN = false := h.x.isNaN_eq_false
  have hy : (b.overlap wall).y.isNaN = false := h.y.isNaN_eq_false
  rcases hunclear.noNumber with hnan | hnan
  · rw [hx] at hnan
    cases hnan
  · rw [hy] at hnan
    cases hnan

/-! ## All walls -/

theorem pushOut_of_clear (hacts : b.ActsOnOverlap wall) (hclear : ¬ b.Overlaps wall) :
    b.pushOut wall = b := by
  rcases apart_or_overlaps_or_unclear b wall with hapart | hoverlaps | hunclear
  · exact pushOut_of_apart hapart
  · exact absurd hoverlaps hclear
  · obtain ⟨hposition, hvelocity⟩ := (actsOnOverlap_iff b wall).mp hacts hunclear
    rw [pushOut_of_unclear hunclear, hposition, ← hvelocity]

theorem foldl_pushOut_of_clear {walls : List (Wall Float)}
    (h : ∀ wall ∈ walls, b.ActsOnOverlap wall ∧ ¬ b.Overlaps wall) :
    walls.foldl pushOut b = b := by
  induction walls with
  | nil => rfl
  | cons wall walls ih =>
    obtain ⟨hacts, hclear⟩ := h wall (by simp)
    rw [List.foldl_cons, pushOut_of_clear hacts hclear]
    exact ih fun other hother => h other (by simp [hother])

/-- A wall that the body clears when its turn comes can be left out. -/
theorem foldl_pushOut_of_clear_between {before after : List (Wall Float)}
    (hacts : (before.foldl pushOut b).ActsOnOverlap wall)
    (hclear : ¬ (before.foldl pushOut b).Overlaps wall) :
    (before ++ wall :: after).foldl pushOut b = (before ++ after).foldl pushOut b := by
  rw [List.foldl_append, List.foldl_cons, pushOut_of_clear hacts hclear, List.foldl_append]

/-- Speeds a body up, moves and turns it, as if there were no walls. -/
def advance (acceleration : Vec Float) (b : Body Float) : Body Float :=
  let velocity := b.velocity.scale (1 - airFriction) + acceleration
  let spin := b.spin * (1 - airFriction)
  { b with velocity, position := b.position + velocity, spin, angle := b.angle + spin }

theorem step_eq_foldl (acceleration : Vec Float) (walls : List (Wall Float)) (b : Body Float) :
    b.step acceleration walls = walls.foldl pushOut (b.advance acceleration) := rfl

theorem position_advance (acceleration : Vec Float) (b : Body Float) :
    (b.advance acceleration).position = b.position + (b.advance acceleration).velocity := rfl

end Body

/-! ## A tick -/

namespace World

variable {w : World} {p : Project} {id : String} {moved : Body Float}

/-- The body of a target in a tick, when it has moved and no wall has pushed it yet. -/
def moved? (w : World) (p : Project) (id : String) : Option (Body Float) :=
  (w.followed? p id).map (·.advance (w.acceleration (stepLength p.config)))

theorem body?_tick_eq_foldl :
    (w.tick p).1.body? id = (w.moved? p id).map fun b => w.walls.foldl Body.pushOut b := by
  simp only [body?_tick, moved?, Option.map_map, Function.comp_def, Body.step_eq_foldl]

theorem moved?_eq_some (h : w.moved? p id = some moved) :
    ∃ t, p.target? id = some t ∧ moved.position = t.state.position.flip + moved.velocity := by
  obtain ⟨b, hb, rfl⟩ := Option.map_eq_some_iff.mp h
  obtain ⟨t, ht, hfollow⟩ := Option.bind_eq_some_iff.mp hb
  obtain ⟨body, -, rfl⟩ := Option.map_eq_some_iff.mp hfollow
  exact ⟨t, ht, Body.position_advance _ _⟩

/-- Where a tick leaves a target and its body that clear all walls. -/
structure MovesFreely (w : World) (p : Project) (id : String) (moved : Body Float) (t u : Target) :
    Prop where
  before : p.target? id = some t
  position : moved.position = t.state.position.flip + moved.velocity
  body : (w.tick p).1.body? id = some moved
  after : (w.tick p).2.target? id = some u
  placed : moved.Placed t.state u.state

theorem movesFreely_of_clear (h : w.moved? p id = some moved)
    (hclear : ∀ wall ∈ w.walls, moved.ActsOnOverlap wall ∧ ¬ moved.Overlaps wall) :
    ∃ t u, w.MovesFreely p id moved t u := by
  obtain ⟨t, ht, hposition⟩ := moved?_eq_some h
  have hbody : (w.tick p).1.body? id = some moved := by
    rw [body?_tick_eq_foldl, h, Option.map_some, Body.foldl_pushOut_of_clear hclear]
  refine ⟨t, (w.tick p).1.placed t, ht, hposition, hbody, ?_, ?_⟩
  · rw [target?_tick, ht, Option.map_some]
  · rw [placed, Project.id_of_target? ht, placing_of_body? hbody]
    exact moved.place_placed t.state

/-- With these walls in place of its own, the world does the same to a target and its body. -/
structure SameWithout (w : World) (p : Project) (id : String) (walls : List (Wall Float)) :
    Prop where
  body : ({ w with walls }.tick p).1.body? id = (w.tick p).1.body? id
  target : ({ w with walls }.tick p).2.target? id = (w.tick p).2.target? id

theorem sameWithout_of_clear {before after : List (Wall Float)} {wall : Wall Float}
    (h : w.moved? p id = some moved) (hwalls : w.walls = before ++ wall :: after)
    (hacts : (before.foldl Body.pushOut moved).ActsOnOverlap wall)
    (hclear : ¬ (before.foldl Body.pushOut moved).Overlaps wall) :
    w.SameWithout p id (before ++ after) := by
  have hbody : ({ w with walls := before ++ after }.tick p).1.body? id =
      (w.tick p).1.body? id := by
    have hmoved : { w with walls := before ++ after }.moved? p id = some moved := h
    rw [body?_tick_eq_foldl, body?_tick_eq_foldl, hmoved, h, Option.map_some, Option.map_some,
      hwalls, Body.foldl_pushOut_of_clear_between hacts hclear]
  exact ⟨hbody, target?_tick_congr hbody⟩

/-- **Walls act on overlap**, with one exception. A wall changes place or speed of a body that it
does not overlap exactly if an overlap is no number, neither axis tells the two apart, and the
vertical push has an effect. It never does if body and wall are at finite places; but a body whose
horizontal place is no number has such an overlap with all walls that stand beside it. The
exception aside, a wall that does not overlap the body when its turn comes in a tick could as well
not be there, and a body that overlaps no wall once it has moved ends at the place of its target
plus its velocity and takes the target there. -/
theorem walls_act_on_overlap (b : Body Float) (wall : Wall Float) :
    (b.ActsOnOverlap wall ↔
      (b.Unclear wall → b.position.y + b.pushY wall = b.position.y ∧ b.velocity.y = 0)) ∧
    (b.FinitelyApart wall → b.ActsOnOverlap wall) ∧
    (b.position.x.isNaN = true → ¬ (b.overlap wall).y ≤ 0 → b.Unclear wall) ∧
    (b.ActsOnOverlap wall → ¬ b.Overlaps wall →
      ∀ (w : World) (p : Project) (id : String) (moved : Body Float)
        (before after : List (Wall Float)), w.moved? p id = some moved →
        w.walls = before ++ wall :: after → before.foldl Body.pushOut moved = b →
        w.SameWithout p id (before ++ after)) ∧
    ∀ (w : World) (p : Project) (id : String), w.moved? p id = some b →
      (∀ other ∈ w.walls, b.ActsOnOverlap other ∧ ¬ b.Overlaps other) →
      ∃ t u, w.MovesFreely p id b t u := by
  refine ⟨b.actsOnOverlap_iff wall, ?_, Body.unclear_of_isNaN, ?_,
    fun w p id => movesFreely_of_clear⟩
  · intro hfinite
    rw [Body.actsOnOverlap_iff]
    exact fun hunclear => absurd hunclear hfinite.not_unclear
  · rintro hacts hclear w p id moved before after hmoved hwalls rfl
    exact sameWithout_of_clear hmoved hwalls hacts hclear

end World

end Physics

namespace Stage

/-! ### A body without a horizontal place -/

/-- A block on a thread of the cat, with one argument. -/
def catBlock (opcode name : String) (v : Value) : Event :=
  .block opcode { values := .ofList [(name, v)] } (.start "Cat" none .interpreted)

/-- A cat with a body whose horizontal speed is no number, between walls on all sides. -/
def noNumberStage : Stage :=
  let cat := { Physics.Call.sprite "Cat" with state := { y := -150 } }
  (⟨{}, { targets := [cat] }⟩ : Stage).after [
    catBlock "setGravity" "VECTOR" (.vector ⟨0, 0⟩), catBlock "boundaries" "OPTION" (.text "all"),
    catBlock "enablePhysics" "OPTION" (.text "box"),
    catBlock "setVel" "VECTOR" (.vector ⟨0 / 0, 0⟩)]

/-- The cat overlaps no wall and still jumps half the length of a wall down. -/
theorem noNumberStage_pushed_apart : ∃ moved,
    noNumberStage.world.moved? noNumberStage.project "Cat" = some moved ∧
      (∀ wall ∈ noNumberStage.world.walls, ¬ moved.Overlaps wall) ∧
      ¬ (∀ wall ∈ noNumberStage.world.walls, moved.ActsOnOverlap wall) ∧
      ((noNumberStage.world.tick noNumberStage.project).2.target? "Cat").map (·.state.y) =
        some (-2251799813685252.5) := by
  have hmoved : (noNumberStage.world.moved? noNumberStage.project "Cat").any (fun moved =>
      decide (∀ wall ∈ noNumberStage.world.walls, ¬ moved.Overlaps wall) &&
        decide (¬ ∀ wall ∈ noNumberStage.world.walls, moved.ActsOnOverlap wall)) = true := by
    decide +kernel
  obtain ⟨moved, hsome, h⟩ := (Option.any_eq_true _ _).mp hmoved
  simp only [Bool.and_eq_true, decide_eq_true_eq] at h
  exact ⟨moved, hsome, h.1, h.2, by decide +kernel⟩

end Stage

end BlockStage
