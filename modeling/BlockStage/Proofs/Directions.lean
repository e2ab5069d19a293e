import BlockStage.Proofs.FloatArithmetic
import BlockStage.Proofs.StageHistory

/-!
Directions. Turning brings every finite direction into the range from -180 to 180, rounding errors
and all, and nothing else changes a direction. So the range is kept by all that happens on a stage,
and a target is out of it just as long as it has the direction that it was loaded with.
-/

namespace BlockStage

open Binary64

/-- The directions above -180 and up to 180. -/
def InRange (direction : Float) : Prop := -180 < direction ∧ direction ≤ 180

instance : DecidablePred InRange := fun _ => inferInstanceAs (Decidable (_ ∧ _))

/-! ## The remainder of a float -/

theorem Decimal.exists_scaled {x : Float} (hx : x.isFinite) :
    ∃ s, Scaled.ofFloat? x = some s ∧ -1074 ≤ s.exponent := by
  have hexponent : x.toBits.toNat / twoPow 52 % twoPow 11 ≠ 2047 := exponentBits_ne hx
  simp only [Scaled.ofFloat?]
  split
  · exact ⟨_, rfl, le_rfl⟩
  · next h => exact absurd h hexponent
  · next e hzero _ =>
    refine ⟨_, rfl, ?_⟩
    change -1074 ≤ ((x.toBits.toNat / twoPow 52 % twoPow 11 : ℕ) : ℤ) - 1075
    have hpos := Nat.pos_of_ne_zero hzero
    omega

/-- The size of a remainder, worked out in decimal. -/
theorem remainder_within {n rest shift : ℕ} (hn : n < 2 ^ 53) (hshift : shift ≤ 2048)
    (hrest : rest < n * 2 ^ shift) :
    (Float.ofScientific (rest * 5 ^ shift) true shift).isFinite ∧
      0 ≤ valueOf (Float.ofScientific (rest * 5 ^ shift) true shift) ∧
      valueOf (Float.ofScientific (rest * 5 ^ shift) true shift) ≤ n := by
  have hnearest := (ofScientific_nearest (rest * 5 ^ shift) hshift).2
  have hvalue : ((rest * 5 ^ shift : ℕ) : ℚ) / 10 ^ shift = rest / 2 ^ shift := by
    rw [show (10 : ℚ) = 2 * 5 by norm_num, mul_pow]
    push_cast
    rw [mul_div_mul_right _ _ (by positivity)]
  have hle : (rest : ℚ) / 2 ^ shift ≤ n := by
    rw [div_le_iff₀ (by positivity)]
    exact_mod_cast hrest.le
  rw [hvalue] at hnearest
  exact hnearest.within hn (by positivity) hle

/-- The remainder may be rounded up to `n` itself, and no further. -/
theorem wrap_within {n : ℕ} (hn : n < 2 ^ 53) (hpos : 0 < n) {x : Float} (hx : x.isFinite) :
    (wrap n x).isFinite ∧ 0 ≤ valueOf (wrap n x) ∧ valueOf (wrap n x) ≤ n := by
  obtain ⟨s, hs, hexponent⟩ := Decimal.exists_scaled hx
  obtain ⟨shift, hshift⟩ : ∃ shift, shift = (-s.exponent).toNat := ⟨_, rfl⟩
  obtain ⟨rest, hrest⟩ : ∃ rest, rest =
    s.significand * Decimal.twoPow s.exponent.toNat % (n * Decimal.twoPow shift) := ⟨_, rfl⟩
  have hlt : rest < n * 2 ^ shift := by
    rw [hrest]
    exact Nat.mod_lt _ (Nat.mul_pos hpos (Nat.two_pow_pos shift))
  obtain ⟨hfinite, hlow, hhigh⟩ := remainder_within hn (by omega) hlt
  obtain ⟨hzero, hzero'⟩ : (0 : Float).isFinite ∧ valueOf 0 = 0 := by
    have h := ofNat_eq (n := 0) (by norm_num)
    rwa [Nat.cast_zero] at h
  unfold wrap
  simp only [hs, ← hshift, ← hrest]
  split
  · split
    · rw [isFinite_neg, valueOf_neg hzero, hzero', neg_zero]
      exact ⟨hzero, le_rfl, Nat.cast_nonneg n⟩
    · rw [hzero']
      exact ⟨hzero, le_rfl, Nat.cast_nonneg n⟩
  · split
    · obtain ⟨hturn, hturn'⟩ := ofNat_eq hn
      have hsum := add_nearest ((isFinite_neg _).trans hfinite) hturn
      rw [valueOf_neg hfinite, hturn'] at hsum
      exact hsum.within hn (by linarith) (by linarith)
    · exact ⟨hfinite, hlow, hhigh⟩

/-! ## Turning -/

theorem isFinite_add_natCast {x : Float} {n : ℕ} (hx : x.isFinite) (hn : n < 2 ^ 53) :
    (x + Float.ofNat n).isFinite := by
  obtain ⟨hfinite, hvalue⟩ := ofNat_eq hn
  have hsum := add_nearest hx hfinite
  rw [hvalue] at hsum
  apply hsum.isFinite
  have hsmall : (n : ℚ) < 2 ^ (970 : ℤ) := by
    have hcast : (n : ℚ) < 2 ^ (53 : ℤ) := by exact_mod_cast hn
    exact hcast.trans_le (zpow_le_zpow_right₀ (by norm_num) (by norm_num))
  calc |valueOf x + n| ≤ |valueOf x| + |(n : ℚ)| := abs_add_le _ _
    _ = |valueOf x| + n := by rw [Nat.abs_cast]
    _ < |valueOf x| + 2 ^ (970 : ℤ) := by linarith
    _ ≤ Rounded.overflow := abs_valueOf_add_le hx

/-- Turning to a finite direction ends in the range. -/
theorem turnTo_inRange (s : TargetState) {direction : Float} (h : direction.isFinite) :
    InRange (s.turnTo direction).direction := by
  obtain ⟨hhalf, hhalf'⟩ : (180 : Float).isFinite ∧ valueOf 180 = 180 :=
    ofNat_eq (n := 180) (by norm_num)
  have hneg : (-180 : Float).isFinite := (isFinite_neg 180).trans hhalf
  have hneg' : valueOf (-180) = -180 := by rw [valueOf_neg hhalf, hhalf']
  have hsum : (direction + 180).isFinite := isFinite_add_natCast (n := 180) h (by norm_num)
  obtain ⟨hwrap, hlow, hhigh⟩ := wrap_within (n := 360) (by norm_num) (by norm_num) hsum
  have hnearest := sub_nearest hwrap hhalf
  rw [hhalf'] at hnearest
  have habs : |valueOf (wrap 360 (direction + 180)) - 180| ≤ (180 : ℕ) := by
    rw [abs_le]
    push_cast at hhigh ⊢
    constructor <;> linarith
  obtain ⟨hfinite, hvalue⟩ := hnearest.abs_le (by norm_num) habs
  rw [Nat.cast_ofNat, abs_le] at hvalue
  unfold TargetState.turnTo
  rw [if_pos h]
  change InRange (if wrap 360 (direction + 180) - 180 == -180 then 180 else _)
  split
  · rw [InRange, lt_iff hneg hhalf, le_iff hhalf hhalf, hneg', hhalf']
    norm_num
  · next hne =>
    have hne' : valueOf (wrap 360 (direction + 180) - 180) ≠ -180 := by
      rwa [← hneg', Ne, ← beq_iff hfinite hneg]
    rw [InRange, lt_iff hneg hfinite, le_iff hfinite hhalf, hneg', hhalf']
    exact ⟨lt_of_le_of_ne hvalue.1 hne'.symm, hvalue.2⟩

/-- Moves and turns leave the direction as it was, or in the range. -/
theorem TargetState.Steered.direction {s t : TargetState} (h : Steered s t) :
    t.direction = s.direction ∨ InRange t.direction := by
  induction h with
  | still => exact .inl rfl
  | move _ v ih => exact ih
  | @turn t _ direction ih =>
    cases hfinite : direction.isFinite with
    | true => exact .inr (turnTo_inRange t hfinite)
    | false =>
      have hstay : t.turnTo direction = t := by simp [turnTo, hfinite]
      rwa [hstay]

/-! ## Directions on a stage -/

namespace Stage

/-- **Directions that stay in the range.** Whatever happens on a stage, a target has the direction
that it had at first, or one in the range. So its direction is in the range in every state exactly
if it is in the range in the first. -/
theorem direction_inRange_iff (s : Stage) (i : Nat) :
    (∀ events t, (s.after events).project.targets[i]? = some t →
      InRange t.state.direction ∨
        s.project.targets[i]?.map (·.state.direction) = some t.state.direction) ∧
    ((∀ events t, (s.after events).project.targets[i]? = some t → InRange t.state.direction) ↔
      ∀ t, s.project.targets[i]? = some t → InRange t.state.direction) := by
  have hkept (events : List Event) (t : Target)
      (h : (s.after events).project.targets[i]? = some t) :
      InRange t.state.direction ∨
        s.project.targets[i]?.map (·.state.direction) = some t.state.direction := by
    obtain ⟨t₀, hentry, hsteered⟩ := s.exists_entry events h
    rcases hsteered.direction with hsame | hrange
    · rw [hentry, Option.map_some, hsame]
      exact .inr rfl
    · exact .inl hrange
  refine ⟨hkept, fun h t ht => h [] t ht, fun h events t ht => ?_⟩
  rcases hkept events t ht with hrange | hsame
  · exact hrange
  · obtain ⟨t₀, hentry, hdirection⟩ := Option.map_eq_some_iff.mp hsame
    rw [← hdirection]
    exact h t₀ hentry

/-- A project of one sprite that is written with the direction 270. -/
def turnedText : String :=
  "\x7b\"targets\":[\x7b\"isStage\":false,\"name\":\"Cat\",\"direction\":270\x7d]\x7d"

/-- A direction is loaded as it is written, so the range fails until something turns the sprite. -/
theorem turnedText_not_inRange :
    ∃ p warnings t, Project.load {} turnedText = .ok (p, warnings) ∧ p.targets[0]? = some t ∧
      ¬ InRange t.state.direction := by
  have hload : ((Project.load {} turnedText).toOption.map Prod.fst).map (fun p =>
      p.targets.map fun t => decide (InRange t.state.direction)) = some [false] := by
    decide +kernel
  obtain ⟨p, warnings, hp, hdirections⟩ := Project.exists_loaded hload
  obtain ⟨t, htargets, hdirection⟩ := List.map_eq_singleton_iff.mp hdirections
  refine ⟨p, warnings, t, hp, ?_, of_decide_eq_false hdirection⟩
  rw [htargets, List.getElem?_cons_zero]

end Stage

end BlockStage
