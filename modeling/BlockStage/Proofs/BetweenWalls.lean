import BlockStage.Proofs.Ticks
import Mathlib.Algebra.Order.Field.Rat
import Mathlib.Algebra.Order.Ring.Abs
import Mathlib.Tactic.Linarith
import Mathlib.Tactic.Ring

/-!
Bodies between the four walls of a stage, in exact numbers. A wall pushes along the axis on which it
stands and leaves the other one alone; and out of a wall, on either side of it, a body that is no
wider than the stage is clear of the wall opposite. So no push takes a body into another wall, none
is undone by a later one, and `settles_between_walls` follows for all four.
-/

namespace BlockStage

inductive Axis where
  | x
  | y
  deriving DecidableEq, Repr

namespace Axis

def other : Axis → Axis
  | x => y
  | y => x

theorem eq_other_of_ne {axis another : Axis} (h : another ≠ axis) : another = axis.other := by
  cases axis with
  | x =>
    cases another with
    | x => exact absurd rfl h
    | y => rfl
  | y =>
    cases another with
    | x => rfl
    | y => exact absurd rfl h

end Axis

namespace Vec

variable {α : Type}

def along (v : Vec α) : Axis → α
  | .x => v.x
  | .y => v.y

def put (v : Vec α) : Axis → α → Vec α
  | .x, a => ⟨a, v.y⟩
  | .y, a => ⟨v.x, a⟩

@[simp] theorem along_put_self (v : Vec α) (axis : Axis) (a : α) :
    (v.put axis a).along axis = a := by
  cases axis <;> rfl

theorem along_put_of_ne (v : Vec α) {axis other : Axis} (h : other ≠ axis) (a : α) :
    (v.put axis a).along other = v.along other := by
  rw [Axis.eq_other_of_ne h]
  cases axis <;> rfl

end Vec

namespace Coordinate

theorem abs_rat (q : ℚ) : Coordinate.abs q = |q| := by
  change (if q < 0 then -q else q) = |q|
  split
  · next h => rw [abs_of_neg h]
  · next h => rw [abs_of_nonneg (not_lt.mp h)]

theorem copySign_rat (p q : ℚ) : copySign p q = if q < 0 then -|p| else |p| := by
  rw [← abs_rat]
  rfl

end Coordinate

namespace Physics

/-! ## One axis -/

/-- How far two intervals overlap that touch at distance `reach` of their centres. -/
def overlapAlong (reach center place : ℚ) : ℚ := reach - |place - center|

/-- Where an interval at `place` is pushed by one that rests at `center`. -/
def pushAlong (reach center place : ℚ) : ℚ :=
  if overlapAlong reach center place ≤ 0 then place
  else place + Coordinate.copySign (overlapAlong reach center place) (place - center)

section

variable {reach center place : ℚ}

theorem pushAlong_of_overlap (h : 0 < overlapAlong reach center place) :
    pushAlong reach center place = if place < center then center - reach else center + reach := by
  rw [pushAlong, if_neg (not_le.mpr h), Coordinate.copySign_rat, abs_of_pos h]
  by_cases hside : place < center
  · have hoffset : place - center < 0 := sub_neg.mpr hside
    rw [if_pos hoffset, if_pos hside, overlapAlong, abs_of_neg hoffset]
    ring
  · have hoffset : ¬ place - center < 0 := fun hneg => hside (sub_neg.mp hneg)
    rw [if_neg hoffset, if_neg hside, overlapAlong, abs_of_nonneg (not_lt.mp hoffset)]
    ring

theorem reach_pos (h : 0 < overlapAlong reach center place) : 0 < reach :=
  (abs_nonneg (place - center)).trans_lt (sub_pos.mp h)

/-- A push ends at the distance at which the two touch. -/
theorem abs_pushAlong_sub (h : 0 < overlapAlong reach center place) :
    |pushAlong reach center place - center| = reach := by
  have hreach := reach_pos h
  rw [pushAlong_of_overlap h]
  split
  · rw [sub_sub_cancel_left, abs_neg, abs_of_pos hreach]
  · rw [add_sub_cancel_left, abs_of_pos hreach]

theorem pushAlong_ne (h : 0 < overlapAlong reach center place) :
    pushAlong reach center place ≠ place := by
  intro hsame
  have htouch := abs_pushAlong_sub h
  rw [hsame] at htouch
  rw [overlapAlong, htouch, sub_self] at h
  exact lt_irrefl 0 h

/-- An interval no longer than a stage of length `size`, pushed out of the wall at one end, overlaps
the wall at neither end. -/
theorem overlapAlong_pushAlong_le {extent size wall : ℚ} (hextent : extent ≤ size / 2)
    (hcenter : |center| = size) (hwall : |wall| = size)
    (h : 0 < overlapAlong (extent + size / 2) center place) :
    overlapAlong (extent + size / 2) wall (pushAlong (extent + size / 2) center place) ≤ 0 := by
  have htouch := abs_pushAlong_sub h
  obtain ⟨pushed, hpushed⟩ : ∃ pushed, pushed = pushAlong (extent + size / 2) center place :=
    ⟨_, rfl⟩
  rw [← hpushed] at htouch ⊢
  rcases abs_eq_abs.mp (hwall.trans hcenter.symm) with rfl | rfl
  · rw [overlapAlong, htouch, sub_self]
  · -- the walls are two lengths apart, and the pushed interval is one reach from the first
    have hapart : |2 * center| ≤ |pushed - -center| + |pushed - center| := by
      calc |2 * center| = |(pushed - -center) - (pushed - center)| := by ring_nf
        _ ≤ |pushed - -center| + |pushed - center| := abs_sub _ _
    rw [abs_mul, abs_two, hcenter, htouch] at hapart
    rw [overlapAlong]
    linarith

theorem abs_pushAlong_le {bound : ℚ} (hplace : |place| ≤ bound)
    (hpushed : |center| + reach ≤ bound) : |pushAlong reach center place| ≤ bound := by
  by_cases h : overlapAlong reach center place ≤ 0
  · rwa [pushAlong, if_pos h]
  · have hsum := abs_add_le center (pushAlong reach center place - center)
    rw [add_sub_cancel, abs_pushAlong_sub (not_le.mp h)] at hsum
    exact hsum.trans hpushed

end

/-! ## One wall -/

namespace Body

/-- On some axis, body and wall do not overlap. -/
def Clears (b : Body ℚ) (wall : Wall ℚ) : Prop := ∃ axis, (b.overlap wall).along axis ≤ 0

/-- The distance at which body and wall touch on an axis. -/
def reach (b : Body ℚ) (wall : Wall ℚ) (axis : Axis) : ℚ :=
  b.shape.halfExtents.along axis + wall.halfSize.along axis

/-- The body at another place on an axis, and at rest along it. -/
def stopAt (b : Body ℚ) (axis : Axis) (place : ℚ) : Body ℚ :=
  { b with position := b.position.put axis place, velocity := b.velocity.put axis 0 }

variable {b : Body ℚ} {wall : Wall ℚ}

theorem overlap_along (b : Body ℚ) (wall : Wall ℚ) (axis : Axis) :
    (b.overlap wall).along axis =
      overlapAlong (b.reach wall axis) (wall.center.along axis) (b.position.along axis) := by
  rw [overlapAlong, ← Coordinate.abs_rat]
  cases axis <;> rfl

theorem not_clears_iff : ¬ b.Clears wall ↔ ∀ axis, 0 < (b.overlap wall).along axis := by
  simp only [Clears, not_exists, not_le]

/-- **One push.** A wall leaves a body that clears it alone, and pushes any other along an axis of
least overlap. -/
theorem pushOut_cases (b : Body ℚ) (wall : Wall ℚ) :
    (b.Clears wall ∧ b.pushOut wall = b) ∨
      ∃ axis, ¬ b.Clears wall ∧
        (b.overlap wall).along axis ≤ (b.overlap wall).along axis.other ∧
        b.pushOut wall = b.stopAt axis
          (pushAlong (b.reach wall axis) (wall.center.along axis) (b.position.along axis)) := by
  by_cases hclears : b.Clears wall
  · obtain ⟨axis, haxis⟩ := hclears
    refine .inl ⟨⟨axis, haxis⟩, if_pos ?_⟩
    cases axis with
    | x => exact .inl haxis
    | y => exact .inr haxis
  · have hpos := not_clears_iff.mp hclears
    have hapart : ¬ ((b.overlap wall).x ≤ 0 ∨ (b.overlap wall).y ≤ 0) := by
      rintro (hx | hy)
      · exact not_le.mpr (hpos .x) hx
      · exact not_le.mpr (hpos .y) hy
    have hplace (axis : Axis) :
        pushAlong (b.reach wall axis) (wall.center.along axis) (b.position.along axis) =
          b.position.along axis + Coordinate.copySign ((b.overlap wall).along axis)
            (b.position.along axis - wall.center.along axis) := by
      rw [pushAlong, ← overlap_along, if_neg (not_le.mpr (hpos axis))]
    right
    by_cases hless : (b.overlap wall).x < (b.overlap wall).y
    · refine ⟨.x, hclears, hless.le, ?_⟩
      rw [hplace]
      exact (if_neg hapart).trans (if_pos hless)
    · refine ⟨.y, hclears, not_lt.mp hless, ?_⟩
      rw [hplace]
      exact (if_neg hapart).trans (if_neg hless)

/-- After a push, body and wall do not overlap. -/
theorem clears_pushOut (b : Body ℚ) (wall : Wall ℚ) : (b.pushOut wall).Clears wall := by
  rcases b.pushOut_cases wall with ⟨hclears, hpush⟩ | ⟨axis, hoverlap, _, hpush⟩
  · rwa [hpush]
  · have hpos := not_clears_iff.mp hoverlap axis
    rw [overlap_along] at hpos
    refine ⟨axis, ?_⟩
    rw [overlap_along, hpush]
    have htouch := abs_pushAlong_sub hpos
    have hplace : ((b.stopAt axis (pushAlong (b.reach wall axis) (wall.center.along axis)
        (b.position.along axis))).position).along axis = _ := b.position.along_put_self axis _
    rw [hplace, overlapAlong, htouch]
    exact (sub_self _).le

@[simp] theorem position_stopAt (b : Body ℚ) (axis : Axis) (place : ℚ) :
    (b.stopAt axis place).position = b.position.put axis place := rfl

@[simp] theorem velocity_stopAt (b : Body ℚ) (axis : Axis) (place : ℚ) :
    (b.stopAt axis place).velocity = b.velocity.put axis 0 := rfl

/-! ## Any walls -/

/-- One of the walls, when its turn comes, moves the body along the axis. -/
def PushedAlong (axis : Axis) : List (Wall ℚ) → Body ℚ → Prop
  | [], _ => False
  | wall :: walls, b =>
    (b.pushOut wall).position.along axis ≠ b.position.along axis ∨
      PushedAlong axis walls (b.pushOut wall)

/-- A push stops the body on the axis along which it moves it. -/
theorem velocity_pushOut (b : Body ℚ) (wall : Wall ℚ) (axis : Axis) :
    ((b.pushOut wall).position.along axis ≠ b.position.along axis →
      (b.pushOut wall).velocity.along axis = 0) ∧
    ((b.pushOut wall).position.along axis = b.position.along axis →
      (b.pushOut wall).velocity.along axis = b.velocity.along axis) := by
  rcases b.pushOut_cases wall with ⟨_, hpush⟩ | ⟨pushed, hoverlap, _, hpush⟩
  · simp [hpush]
  · rw [hpush, position_stopAt, velocity_stopAt]
    by_cases haxis : axis = pushed
    · subst haxis
      have hpos := not_clears_iff.mp hoverlap axis
      rw [overlap_along] at hpos
      refine ⟨fun _ => Vec.along_put_self _ _ _, fun hsame => ?_⟩
      rw [Vec.along_put_self] at hsame
      exact absurd hsame (pushAlong_ne hpos)
    · rw [Vec.along_put_of_ne _ haxis, Vec.along_put_of_ne _ haxis]
      exact ⟨fun hmoved => absurd rfl hmoved, fun _ => rfl⟩

theorem velocity_foldl (axis : Axis) (walls : List (Wall ℚ)) (b : Body ℚ) :
    (PushedAlong axis walls b → (walls.foldl pushOut b).velocity.along axis = 0) ∧
    (¬ PushedAlong axis walls b →
      (walls.foldl pushOut b).velocity.along axis = b.velocity.along axis) := by
  induction walls generalizing b with
  | nil => exact ⟨False.elim, fun _ => rfl⟩
  | cons wall walls ih =>
    obtain ⟨hstops, hstays⟩ := b.velocity_pushOut wall axis
    obtain ⟨hlater, hnever⟩ := ih (b.pushOut wall)
    rw [List.foldl_cons]
    by_cases hrest : PushedAlong axis walls (b.pushOut wall)
    · exact ⟨fun _ => hlater hrest, fun hnot => absurd (.inr hrest) hnot⟩
    · rw [hnever hrest]
      refine ⟨fun hpushed => hstops (hpushed.resolve_right hrest), fun hnot => hstays ?_⟩
      exact not_not.mp fun hmoved => hnot (.inl hmoved)

end Body

/-! ## The walls of a stage -/

/-- A wall that stands across an axis and is as wide there as the stage. -/
def Wall.across (stage : Vec ℚ) (axis : Axis) (center : ℚ) : Wall ℚ :=
  .ofSize ((Vec.both 0).put axis center) ((Vec.both wallLength).put axis (stage.along axis))

/-- The wall is one of the two at the ends of an axis. -/
def Wall.IsEnd (stage : Vec ℚ) (wall : Wall ℚ) : Prop :=
  ∃ axis center, |center| = stage.along axis ∧ wall = .across stage axis center

theorem walls_all (stage : Vec ℚ) :
    Boundaries.all.walls stage.x stage.y =
      [.across stage .x (-stage.x), .across stage .x stage.x,
        .across stage .y (-stage.y), .across stage .y stage.y] := rfl

/-- The body is no larger than the stage and not too far from it for walls to count as endless. -/
structure Body.Fits (stage : Vec ℚ) (b : Body ℚ) : Prop where
  size (axis : Axis) : stage.along axis ≤ 2 ^ 32
  extent_nonneg (axis : Axis) : 0 ≤ b.shape.halfExtents.along axis
  extent_le (axis : Axis) : b.shape.halfExtents.along axis ≤ stage.along axis / 2
  near (axis : Axis) : |b.position.along axis| ≤ 10 ^ 15

namespace Wall

variable {stage : Vec ℚ} {axis other : Axis} {center : ℚ}

theorem center_across : (across stage axis center).center.along axis = center :=
  Vec.along_put_self _ _ _

theorem halfSize_across :
    (across stage axis center).halfSize.along axis = stage.along axis / 2 := by
  cases axis <;> rfl

theorem center_across_of_ne (h : other ≠ axis) :
    (across stage axis center).center.along other = 0 := by
  rw [across, ofSize, Vec.along_put_of_ne _ h]
  cases other <;> rfl

theorem halfSize_across_of_ne (h : other ≠ axis) :
    (across stage axis center).halfSize.along other = 4503599627370495 / 2 := by
  rw [Axis.eq_other_of_ne h]
  cases axis <;> rfl

end Wall

namespace Body

variable {stage : Vec ℚ} {b : Body ℚ} {axis other : Axis} {center : ℚ}

/-- A body and an end of its axis touch at this distance. -/
def reachIn (b : Body ℚ) (stage : Vec ℚ) (axis : Axis) : ℚ :=
  b.shape.halfExtents.along axis + stage.along axis / 2

theorem overlap_across (b : Body ℚ) (stage : Vec ℚ) (axis : Axis) (center : ℚ) :
    (b.overlap (.across stage axis center)).along axis =
      overlapAlong (b.reachIn stage axis) center (b.position.along axis) := by
  rw [overlap_along, reach, Wall.center_across, Wall.halfSize_across, reachIn]

theorem Fits.reachIn_le (h : b.Fits stage) (axis : Axis) :
    b.reachIn stage axis ≤ stage.along axis := by
  have hextent := h.extent_le axis
  rw [reachIn]
  linarith

theorem Fits.overlap_across_le (h : b.Fits stage) (axis : Axis) (center : ℚ) :
    (b.overlap (.across stage axis center)).along axis ≤ 2 ^ 32 := by
  rw [overlap_across, overlapAlong]
  exact (sub_le_self _ (abs_nonneg _)).trans ((h.reachIn_le axis).trans (h.size axis))

/-- Near the stage, a wall overlaps a body much further along its length than across it. -/
theorem Fits.lt_overlap_across (h : b.Fits stage) (hother : other ≠ axis) (center : ℚ) :
    2 ^ 32 < (b.overlap (.across stage axis center)).along other := by
  rw [overlap_along, reach, Wall.center_across_of_ne hother, Wall.halfSize_across_of_ne hother,
    overlapAlong, sub_zero]
  have hextent := h.extent_nonneg other
  have hnear := h.near other
  linarith

theorem Fits.overlap_of_clears (h : b.Fits stage)
    (hclears : b.Clears (.across stage axis center)) :
    overlapAlong (b.reachIn stage axis) center (b.position.along axis) ≤ 0 := by
  obtain ⟨clear, hclear⟩ := hclears
  have haxis : clear = axis := by
    by_contra hother
    have hlong := h.lt_overlap_across hother center
    linarith
  rwa [haxis, overlap_across] at hclear

/-- **One end.** A wall pushes along the axis at whose end it stands, or not at all. -/
theorem Fits.pushOut_across (h : b.Fits stage) (axis : Axis) (center : ℚ) :
    (overlapAlong (b.reachIn stage axis) center (b.position.along axis) ≤ 0 ∧
      b.pushOut (.across stage axis center) = b) ∨
    (0 < overlapAlong (b.reachIn stage axis) center (b.position.along axis) ∧
      b.pushOut (.across stage axis center) =
        b.stopAt axis (pushAlong (b.reachIn stage axis) center (b.position.along axis))) := by
  rcases b.pushOut_cases (.across stage axis center) with ⟨hclears, hpush⟩ |
    ⟨pushed, hoverlap, hleast, hpush⟩
  · exact .inl ⟨h.overlap_of_clears hclears, hpush⟩
  · have haxis : pushed = axis := by
      by_contra hother
      have hlong := h.lt_overlap_across hother center
      have hacross := h.overlap_across_le axis center
      rw [← Axis.eq_other_of_ne (Ne.symm hother)] at hleast
      linarith
    subst haxis
    have hpos := not_clears_iff.mp hoverlap pushed
    rw [overlap_across] at hpos
    rw [reach, Wall.center_across, Wall.halfSize_across] at hpush
    exact .inr ⟨hpos, hpush⟩

theorem Fits.pushOut (h : b.Fits stage) (hwall : wall.IsEnd stage) :
    (b.pushOut wall).Fits stage := by
  obtain ⟨axis, center, hcenter, rfl⟩ := hwall
  rcases h.pushOut_across axis center with ⟨_, hpush⟩ | ⟨_, hpush⟩
  · rwa [hpush]
  · rw [hpush]
    refine ⟨h.size, h.extent_nonneg, h.extent_le, fun a => ?_⟩
    rw [position_stopAt]
    by_cases ha : a = axis
    · subst ha
      rw [Vec.along_put_self]
      refine abs_pushAlong_le (h.near a) ?_
      have hsize := h.size a
      have hreach := h.reachIn_le a
      rw [hcenter]
      linarith
    · rw [Vec.along_put_of_ne _ ha]
      exact h.near a

/-! ## Both ends of an axis -/

/-- On the axis, the body overlaps the wall at neither end. -/
def FreeAlong (stage : Vec ℚ) (b : Body ℚ) (axis : Axis) : Prop :=
  ∀ center, |center| = stage.along axis →
    overlapAlong (b.reachIn stage axis) center (b.position.along axis) ≤ 0

theorem FreeAlong.clears (h : b.FreeAlong stage axis) (hcenter : |center| = stage.along axis) :
    b.Clears (.across stage axis center) := by
  refine ⟨axis, ?_⟩
  rw [overlap_across]
  exact h center hcenter

/-- Once a wall has pushed it, a body is free of both. -/
theorem Fits.freeAlong_of_moved (h : b.Fits stage) (hwall : wall.IsEnd stage)
    (hmoved : (b.pushOut wall).position.along axis ≠ b.position.along axis) :
    (b.pushOut wall).FreeAlong stage axis := by
  obtain ⟨across, center, hcenter, rfl⟩ := hwall
  rcases h.pushOut_across across center with ⟨_, hpush⟩ | ⟨hpos, hpush⟩
  · rw [hpush] at hmoved
    exact absurd rfl hmoved
  · rw [hpush, position_stopAt] at hmoved
    by_cases haxis : axis = across
    · subst haxis
      rw [hpush]
      intro other hother
      rw [position_stopAt, Vec.along_put_self]
      exact overlapAlong_pushAlong_le (h.extent_le axis) hcenter hother hpos
    · exact absurd (Vec.along_put_of_ne _ haxis _) hmoved

/-- A body that is free on an axis is not moved along it. -/
theorem Fits.position_of_free (h : b.Fits stage) (hfree : b.FreeAlong stage axis)
    (hwall : wall.IsEnd stage) :
    (b.pushOut wall).position.along axis = b.position.along axis := by
  obtain ⟨across, center, hcenter, rfl⟩ := hwall
  rcases h.pushOut_across across center with ⟨_, hpush⟩ | ⟨hpos, hpush⟩
  · rw [hpush]
  · rw [hpush, position_stopAt]
    refine Vec.along_put_of_ne _ ?_ _
    rintro rfl
    exact absurd (hfree center hcenter) (not_le.mpr hpos)

theorem reachIn_pushOut (b : Body ℚ) (wall : Wall ℚ) (stage : Vec ℚ) (axis : Axis) :
    (b.pushOut wall).reachIn stage axis = b.reachIn stage axis := by
  rw [reachIn, shape_pushOut, reachIn]

theorem Fits.freeAlong_pushOut (h : b.Fits stage) (hfree : b.FreeAlong stage axis)
    (hwall : wall.IsEnd stage) : (b.pushOut wall).FreeAlong stage axis := by
  intro center hcenter
  rw [reachIn_pushOut, h.position_of_free hfree hwall]
  exact hfree center hcenter

/-- **One step.** No wall pushes a body into another one. -/
theorem Fits.clears_of_clears (h : b.Fits stage) (hwall : wall.IsEnd stage) {other : Wall ℚ}
    (hother : other.IsEnd stage) (hclears : b.Clears other) : (b.pushOut wall).Clears other := by
  obtain ⟨axis, center, hcenter, rfl⟩ := hother
  by_cases hmoved : (b.pushOut wall).position.along axis = b.position.along axis
  · refine ⟨axis, ?_⟩
    rw [overlap_across, reachIn_pushOut, hmoved]
    exact h.overlap_of_clears hclears
  · exact (h.freeAlong_of_moved hwall hmoved).clears hcenter

/-! ## Runs over the ends of both axes -/

section

variable {walls : List (Wall ℚ)}

theorem Fits.foldl (h : b.Fits stage) (hwalls : ∀ wall ∈ walls, wall.IsEnd stage) :
    (walls.foldl Body.pushOut b).Fits stage := by
  induction walls generalizing b with
  | nil => exact h
  | cons wall walls ih =>
    exact ih (h.pushOut (hwalls wall (by simp))) fun u hu => hwalls u (by simp [hu])

/-- **One run.** What a body clears it still clears in the end, and so it does each wall of the
run. -/
theorem Fits.clears_foldl (h : b.Fits stage) (hwalls : ∀ wall ∈ walls, wall.IsEnd stage) :
    (∀ other : Wall ℚ, other.IsEnd stage → b.Clears other →
      (walls.foldl Body.pushOut b).Clears other) ∧
    ∀ wall ∈ walls, (walls.foldl Body.pushOut b).Clears wall := by
  induction walls generalizing b with
  | nil => exact ⟨fun _ _ hclears => hclears, by simp⟩
  | cons first walls ih =>
    have hfirst : first.IsEnd stage := hwalls first (by simp)
    obtain ⟨hkept, hclears⟩ := ih (h.pushOut hfirst) fun u hu => hwalls u (by simp [hu])
    refine ⟨fun other hother hb => hkept other hother (h.clears_of_clears hfirst hother hb), ?_⟩
    intro wall hwall
    rcases List.mem_cons.mp hwall with rfl | hrest
    · exact hkept wall hfirst (b.clears_pushOut wall)
    · exact hclears wall hrest

theorem Fits.position_foldl_of_free (h : b.Fits stage) (hfree : b.FreeAlong stage axis)
    (hwalls : ∀ wall ∈ walls, wall.IsEnd stage) :
    (walls.foldl Body.pushOut b).position.along axis = b.position.along axis := by
  induction walls generalizing b with
  | nil => rfl
  | cons wall walls ih =>
    have hwall : wall.IsEnd stage := hwalls wall (by simp)
    rw [List.foldl_cons, ih (h.pushOut hwall) (h.freeAlong_pushOut hfree hwall)
      fun u hu => hwalls u (by simp [hu]), h.position_of_free hfree hwall]

/-- A push along an axis is not taken back by another one. -/
theorem Fits.pushedAlong_iff (h : b.Fits stage) (hwalls : ∀ wall ∈ walls, wall.IsEnd stage) :
    PushedAlong axis walls b ↔
      (walls.foldl Body.pushOut b).position.along axis ≠ b.position.along axis := by
  induction walls generalizing b with
  | nil => exact iff_of_false not_false (not_not.mpr rfl)
  | cons wall walls ih =>
    have hwall : wall.IsEnd stage := hwalls wall (by simp)
    have hrest : ∀ u ∈ walls, u.IsEnd stage := fun u hu => hwalls u (by simp [hu])
    rw [List.foldl_cons, PushedAlong, ih (h.pushOut hwall) hrest]
    by_cases hmoved : (b.pushOut wall).position.along axis = b.position.along axis
    · rw [hmoved]
      exact or_iff_right (not_not.mpr rfl)
    · have hfree := h.freeAlong_of_moved hwall hmoved
      rw [(h.pushOut hwall).position_foldl_of_free hfree hrest]
      exact iff_of_true (.inl hmoved) hmoved

end

end Body

theorem isEnd_of_mem_walls (stage : Vec ℚ) (hnonneg : ∀ axis, 0 ≤ stage.along axis) :
    ∀ wall ∈ Boundaries.all.walls stage.x stage.y, wall.IsEnd stage := by
  have hends (axis : Axis) : (Wall.across stage axis (-stage.along axis)).IsEnd stage ∧
      (Wall.across stage axis (stage.along axis)).IsEnd stage :=
    ⟨⟨axis, _, by rw [abs_neg, abs_of_nonneg (hnonneg axis)], rfl⟩,
      ⟨axis, _, abs_of_nonneg (hnonneg axis), rfl⟩⟩
  rw [walls_all]
  simp only [List.forall_mem_cons, List.not_mem_nil, false_imp_iff, implies_true, and_true]
  exact ⟨(hends .x).1, (hends .x).2, (hends .y).1, (hends .y).2⟩

theorem natCast_toNat_le (n : UInt32) : (n.toNat : ℚ) ≤ 2 ^ 32 := by
  exact_mod_cast n.toNat_lt.le

/-- **Between the walls.** A body no larger than the stage, at most `10 ^ 15` away from its centre,
is pushed by the four walls in turn. In the end it overlaps none of them; no push takes it into a
wall that it was clear of; and it rests along just those axes on which it has been moved, keeping
its velocity along the others. -/
theorem settles_between_walls (width height : UInt32) (b settled : Body ℚ) (walls : List (Wall ℚ))
    (hwalls : walls = Boundaries.all.walls (width.toNat : ℚ) (height.toNat : ℚ))
    (hsettled : walls.foldl Body.pushOut b = settled)
    (hwidth : 0 ≤ b.shape.halfExtents.x ∧ b.shape.halfExtents.x ≤ width.toNat / 2)
    (hheight : 0 ≤ b.shape.halfExtents.y ∧ b.shape.halfExtents.y ≤ height.toNat / 2)
    (hplace : |b.position.x| ≤ 10 ^ 15 ∧ |b.position.y| ≤ 10 ^ 15) :
    (∀ wall ∈ walls, settled.Clears wall) ∧
    (∀ before wall after, walls = before ++ wall :: after → ∀ other ∈ walls,
      (before.foldl Body.pushOut b).Clears other →
        ((before.foldl Body.pushOut b).pushOut wall).Clears other) ∧
    ∀ axis,
      (Body.PushedAlong axis walls b ↔ settled.position.along axis ≠ b.position.along axis) ∧
      (Body.PushedAlong axis walls b → settled.velocity.along axis = 0) ∧
      (¬ Body.PushedAlong axis walls b →
        settled.velocity.along axis = b.velocity.along axis) := by
  obtain ⟨stage, hstage⟩ : ∃ stage : Vec ℚ, stage = ⟨width.toNat, height.toNat⟩ := ⟨_, rfl⟩
  have hfits : b.Fits stage := by
    rw [hstage]
    refine ⟨?_, ?_, ?_, ?_⟩
    · rintro (_ | _)
      · exact natCast_toNat_le width
      · exact natCast_toNat_le height
    · rintro (_ | _)
      · exact hwidth.1
      · exact hheight.1
    · rintro (_ | _)
      · exact hwidth.2
      · exact hheight.2
    · rintro (_ | _)
      · exact hplace.1
      · exact hplace.2
  have hends : ∀ wall ∈ walls, wall.IsEnd stage := by
    rw [hwalls, hstage]
    refine isEnd_of_mem_walls ⟨width.toNat, height.toNat⟩ ?_
    rintro (_ | _)
    · exact Nat.cast_nonneg width.toNat
    · exact Nat.cast_nonneg height.toNat
  subst hsettled
  refine ⟨(hfits.clears_foldl hends).2, ?_, fun axis => ?_⟩
  · intro before wall after hsplit other hother hclears
    have hbefore : ∀ u ∈ before, u.IsEnd stage := fun u hu => hends u (by simp [hsplit, hu])
    have hwall : wall.IsEnd stage := hends wall (by simp [hsplit])
    exact (hfits.foldl hbefore).clears_of_clears hwall (hends other hother) hclears
  · exact ⟨hfits.pushedAlong_iff hends, Body.velocity_foldl axis walls b⟩

/-- A box that overlaps the left wall and the floor of a stage 480 wide and 360 high. -/
def cornerBody : Body ℚ := ⟨.box ⟨40, 20⟩, ⟨-250, 200⟩, ⟨-3, 5⟩, 0, 0⟩

theorem settles_between_walls_cornerBody :
    ∃ settled, (Boundaries.all.walls 480 360).foldl Body.pushOut cornerBody = settled ∧
      settled.position = ⟨-220, 170⟩ ∧ (∀ axis, settled.velocity.along axis = 0) ∧
      ∀ wall ∈ Boundaries.all.walls 480 360, settled.Clears wall := by
  obtain ⟨hclears, _, haxes⟩ := settles_between_walls 480 360 cornerBody _
    (Boundaries.all.walls 480 360) rfl rfl (by decide +kernel) (by decide +kernel)
    (by decide +kernel)
  refine ⟨_, rfl, by decide +kernel, fun axis => (haxes axis).2.1 ((haxes axis).1.mpr ?_), hclears⟩
  cases axis <;> decide +kernel

end Physics

end BlockStage
