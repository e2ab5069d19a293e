import BlockStage.Proofs.FloatValues

/-!
Rounding to the nearest float, as exact arithmetic. A value that is cut off after a significand is
followed through the shifts; what comes out has 53 bits, is at most half a unit in the last place
away, and so keeps to every whole number below `2 ^ 53` that bounds the value.
-/

namespace BlockStage.Binary64

open Float.Model (UnpackedFloat Format totalExponent)
open Float.Model.UnpackedFloat

/-! ## A significand and what it leaves out -/

/-- The significand is the whole part of `x`, and its two bits say where `x` lies beyond it. -/
def Stands (em : ExtendedMantissa) (x : ℚ) : Prop :=
  match em with
  | ⟨m, false, false⟩ => x = m
  | ⟨m, false, true⟩ => (m : ℚ) < x ∧ x < m + 1 / 2
  | ⟨m, true, false⟩ => x = m + 1 / 2
  | ⟨m, true, true⟩ => (m : ℚ) + 1 / 2 < x ∧ x < m + 1

theorem Stands.bounds {em : ExtendedMantissa} {x : ℚ} (h : Stands em x) :
    (em.mantissa : ℚ) ≤ x ∧ x < em.mantissa + 1 := by
  obtain ⟨m, round, sticky⟩ := em
  cases round <;> cases sticky <;> simp only [Stands] at h ⊢ <;> constructor <;> linarith

theorem Stands.shiftRightOne {em : ExtendedMantissa} {x : ℚ} (h : Stands em x) :
    Stands em.shiftRightOne (x / 2) := by
  obtain ⟨m, round, sticky⟩ := em
  have hdiv : (m : ℚ) = 2 * (m / 2 : ℕ) + (m % 2 : ℕ) := by
    exact_mod_cast (Nat.div_add_mod m 2).symm
  rcases Nat.mod_two_eq_zero_or_one m with hm | hm <;> rw [hm] at hdiv
  all_goals
    cases round <;> cases sticky <;>
      simp only [Stands, ExtendedMantissa.shiftRightOne, hm] at h ⊢ <;>
      push_cast at hdiv <;> simp <;> (first | constructor <;> linarith | linarith)

/-- Every bit shifted out halves the value. -/
theorem Stands.shiftRight {em : ExtendedMantissa} {x : ℚ} (h : Stands em x) (n : ℕ) :
    Stands (em >>> n) (x / 2 ^ n) := by
  change Stands (n.repeat ExtendedMantissa.shiftRightOne em) _
  induction n with
  | zero =>
    rw [pow_zero, div_one]
    exact h
  | succ n ih =>
    rw [Nat.repeat, pow_succ, ← div_div]
    exact ih.shiftRightOne

/-- The rounded significand is at most one half away. -/
theorem Stands.roundedMantissa {em : ExtendedMantissa} {x : ℚ} (h : Stands em x) :
    |(em.roundedMantissa : ℚ) - x| ≤ 1 / 2 := by
  obtain ⟨m, round, sticky⟩ := em
  have hodd : (m % 2 : ℕ) = (0 : ℚ) ∨ ((m % 2 : ℕ) : ℚ) = 1 := by
    rcases Nat.mod_two_eq_zero_or_one m with hm | hm
    · left; rw [hm]; norm_num
    · right; rw [hm]; norm_num
  rw [abs_le]
  cases round <;> cases sticky <;>
    simp only [Stands, ExtendedMantissa.roundedMantissa, ExtendedMantissa.accuracy,
      Accuracy.roundToNearestEven] at h ⊢ <;> push_cast
  · constructor <;> linarith
  · constructor <;> linarith
  · rcases hodd with hm | hm <;> constructor <;> linarith
  · constructor <;> linarith

theorem stands_exact (m : ℕ) : Stands (.ofMantissaAndAccuracy m .exact) m := rfl

theorem stands_fraction (m num den : ℕ) (h : num < den) :
    Stands (.ofMantissaAndAccuracy m (accuracyOfFraction num den)) (m + num / den) := by
  have hden : (0 : ℚ) < den := by exact_mod_cast (Nat.zero_le num).trans_lt h
  have hlt : (num : ℚ) / den < 1 := by
    rw [div_lt_one hden]
    exact_mod_cast h
  unfold accuracyOfFraction
  split
  · next hzero =>
    simp [hzero, Stands, ExtendedMantissa.ofMantissaAndAccuracy]
  · next hpos =>
    have hpos' : (0 : ℚ) < num / den := div_pos (by exact_mod_cast Nat.pos_of_ne_zero hpos) hden
    rcases lt_trichotomy (2 * num) den with hhalf | hhalf | hhalf
    · have : (num : ℚ) / den < 1 / 2 := by
        rw [div_lt_div_iff₀ hden (by norm_num)]
        exact_mod_cast (by omega : num * 2 < 1 * den)
      rw [compare_lt_iff_lt.mpr hhalf]
      simp only [Stands, ExtendedMantissa.ofMantissaAndAccuracy]
      constructor <;> linarith
    · have : (num : ℚ) / den = 1 / 2 := by
        rw [div_eq_div_iff hden.ne' (by norm_num)]
        exact_mod_cast (by omega : num * 2 = 1 * den)
      rw [compare_eq_iff_eq.mpr hhalf]
      simp only [Stands, ExtendedMantissa.ofMantissaAndAccuracy]
      linarith
    · have : 1 / 2 < (num : ℚ) / den := by
        rw [div_lt_div_iff₀ (by norm_num) hden]
        exact_mod_cast (by omega : 1 * den < num * 2)
      rw [compare_gt_iff_gt.mpr hhalf]
      simp only [Stands, ExtendedMantissa.ofMantissaAndAccuracy]
      constructor <;> linarith

/-! ## Rounding to 53 bits -/

theorem targetExponent_eq (te : ℤ) : Format.binary64.targetExponent te = max (te - 53) (-1074) :=
  rfl

/-- A significand within one half of the value in units of `2 ^ t`. -/
structure Near (q : ℚ) (t : ℤ) (m : ℕ) : Prop where
  least : -1074 ≤ t
  below : q < 2 ^ (t + 53)
  above : t = -1074 ∨ 2 ^ (t + 52) ≤ q
  close : |m - q / 2 ^ t| ≤ 1 / 2

/-- What rounding makes of the number `± q`: a float in canonical form, of the same sign, that has
a significand nearest to `q` in units of its last place. -/
structure Rounded (s : Sign) (q : ℚ) (u : UnpackedFloat) : Prop where
  number : IsNumber u
  sign : signOf u = s
  near : ∃ (t : ℤ) (m : ℕ), Near q t m ∧ magnitude u = m * 2 ^ t

/-- A float in canonical form is the rounded form of its own value. -/
theorem rounded_self {u : UnpackedFloat} (hu : IsNumber u) :
    Rounded (signOf u) (magnitude u) u := by
  refine ⟨hu, rfl, ?_⟩
  cases hu with
  | zero s =>
    refine ⟨-1074, 0, ⟨le_rfl, two_zpow_pos _, .inl rfl, ?_⟩, ?_⟩
    · simp [magnitude]
    · simp [magnitude]
  | @finite s m e hm h =>
    have he : (2 : ℚ) ^ e ≠ 0 := (two_zpow_pos e).ne'
    refine ⟨e, m, ⟨h.least, h.lt, ?_, ?_⟩, rfl⟩
    · by_cases hleast : e = -1074
      · exact .inl hleast
      · exact .inr (h.le hleast)
    · rw [magnitude, mul_div_cancel_right₀ _ he, sub_self, abs_zero]
      norm_num

/-- Once rounded, a significand takes 53 bits, or is the power of two that takes one more. -/
theorem shiftToTargetExponent_rounded {m : ℕ} {t : ℤ} (hm : m ≤ 2 ^ 53) (ht : -1074 ≤ t) :
    shiftToTargetExponent .binary64 m t .exact =
      if m < 2 ^ 53 then (⟨m, false, false⟩, t) else (⟨2 ^ 52, false, false⟩, t + 1) := by
  by_cases hlt : m < 2 ^ 53
  · have hlog : m.log2 < 53 := by
      by_cases hzero : m = 0
      · rw [hzero]
        decide
      · exact (Nat.log2_lt hzero).mpr hlt
    have hamount : (Format.binary64.targetExponent (totalExponent m t) - t).toNat = 0 := by
      rw [targetExponent_eq, totalExponent]
      omega
    rw [if_pos hlt]
    simp only [shiftToTargetExponent, shiftToExponent, hamount]
    exact Prod.ext rfl (add_zero t)
  · obtain rfl : m = 2 ^ 53 := by omega
    have hlog : (2 ^ 53 : ℕ).log2 = 53 := Nat.log2_two_pow
    have hamount : (Format.binary64.targetExponent (totalExponent (2 ^ 53) t) - t).toNat = 1 := by
      rw [targetExponent_eq, totalExponent, hlog]
      omega
    rw [if_neg hlt]
    simp only [shiftToTargetExponent, shiftToExponent, hamount]
    rfl

theorem Near.le {q : ℚ} {t : ℤ} {m : ℕ} (h : Near q t m) : m ≤ 2 ^ 53 := by
  have hq : q / 2 ^ t < 2 ^ (53 : ℤ) := by
    rw [div_lt_iff₀ (two_zpow_pos t), ← zpow_add₀ (by norm_num), add_comm]
    exact h.below
  have hm : (m : ℚ) < 2 ^ 53 + 1 := by
    have hclose := (abs_le.mp h.close).2
    rw [zpow_ofNat] at hq
    linarith
  exact Nat.lt_succ_iff.mp (by exact_mod_cast hm)

theorem Near.full {q : ℚ} {t : ℤ} {m : ℕ} (h : Near q t m) : t = -1074 ∨ 2 ^ 52 ≤ m := by
  refine h.above.imp_right fun habove => ?_
  have hq : 2 ^ (52 : ℤ) ≤ q / 2 ^ t := by
    rw [le_div_iff₀ (two_zpow_pos t), ← zpow_add₀ (by norm_num), add_comm]
    exact habove
  have hm : ((2 ^ 52 - 1 : ℕ) : ℚ) < m := by
    have hclose := (abs_le.mp h.close).1
    rw [zpow_ofNat] at hq
    push_cast
    linarith
  have hm' : 2 ^ 52 - 1 < m := by exact_mod_cast hm
  omega

theorem mantissa_ofMantissaAndAccuracy (m : ℕ) (accuracy : Accuracy) :
    (ExtendedMantissa.ofMantissaAndAccuracy m accuracy).mantissa = m := by
  unfold ExtendedMantissa.ofMantissaAndAccuracy
  split <;> rfl

/-- A value is below the power of two that ends the bits of its whole part. -/
theorem mul_lt_two_zpow {m : ℕ} {x : ℚ} (hx : x < m + 1) (e : ℤ) :
    x * 2 ^ e < 2 ^ ((m.log2 : ℤ) + 1 + e) := by
  have hm : (m : ℚ) + 1 ≤ 2 ^ (m.log2 + 1) := by exact_mod_cast Nat.lt_log2_self
  calc x * 2 ^ e < 2 ^ (m.log2 + 1) * 2 ^ e :=
        mul_lt_mul_of_pos_right (hx.trans_le hm) (two_zpow_pos e)
    _ = 2 ^ ((m.log2 : ℤ) + 1 + e) := by
        rw [zpow_add₀ (by norm_num) ((m.log2 : ℤ) + 1)]
        norm_cast

/-- A value is not below the power of two of the first bit of its whole part. -/
theorem two_zpow_le_mul {m : ℕ} {x : ℚ} (hm : m ≠ 0) (hx : m ≤ x) (e : ℤ) :
    (2 : ℚ) ^ ((m.log2 : ℤ) + e) ≤ x * 2 ^ e := by
  have hle : (2 : ℚ) ^ m.log2 ≤ m := by exact_mod_cast Nat.log2_self_le hm
  calc (2 : ℚ) ^ ((m.log2 : ℤ) + e) = 2 ^ m.log2 * 2 ^ e := by
        rw [zpow_add₀ (by norm_num), zpow_natCast]
    _ ≤ x * 2 ^ e := mul_le_mul_of_nonneg_right (hle.trans hx) (two_zpow_pos e).le

/-- The first shift brings a value to the exponent that its size asks for. -/
theorem near_of_stands {m : ℕ} {e : ℤ} {accuracy : Accuracy} {x : ℚ}
    (hx : Stands (.ofMantissaAndAccuracy m accuracy) x)
    (he : e ≤ Format.binary64.targetExponent (totalExponent m e)) :
    ∃ (em : ExtendedMantissa) (t : ℤ),
      shiftToTargetExponent .binary64 m e accuracy = (em, t) ∧
        Near (x * 2 ^ e) t em.roundedMantissa := by
  obtain ⟨k, hk⟩ := Int.le.dest he
  obtain ⟨t, ht⟩ : ∃ t, t = Format.binary64.targetExponent (totalExponent m e) := ⟨_, rfl⟩
  rw [← ht] at hk
  have htarget : t = max ((m.log2 : ℤ) + 1 + e - 53) (-1074) := ht
  have hamount : (t - e).toNat = k := by omega
  obtain ⟨hlow, hhigh⟩ := hx.bounds
  rw [mantissa_ofMantissaAndAccuracy] at hlow hhigh
  refine ⟨ExtendedMantissa.ofMantissaAndAccuracy m accuracy >>> k, t, ?_, by omega, ?_, ?_, ?_⟩
  · simp only [shiftToTargetExponent, shiftToExponent, ← ht, hamount, hk]
  · apply (mul_lt_two_zpow hhigh e).trans_le
    apply zpow_le_zpow_right₀ (by norm_num)
    omega
  · by_cases hleast : t = -1074
    · exact .inl hleast
    · have hm : m ≠ 0 := by
        intro hzero
        rw [hzero, Nat.log2_zero] at htarget
        omega
      have hexponent : t + 52 = (m.log2 : ℤ) + e := by omega
      right
      rw [hexponent]
      exact two_zpow_le_mul hm hlow e
  · have hpow : (2 : ℚ) ^ t = 2 ^ e * 2 ^ k := by
      rw [← hk, zpow_add₀ (by norm_num), zpow_natCast]
    have hscaled : x * 2 ^ e / 2 ^ t = x / 2 ^ k := by
      rw [hpow, mul_comm ((2 : ℚ) ^ e), mul_div_mul_right _ _ (two_zpow_pos e).ne']
    rw [hscaled]
    exact (hx.shiftRight k).roundedMantissa

theorem roundWithAccuracy_rounded (s : Sign) {m : ℕ} {e : ℤ} {accuracy : Accuracy} {x : ℚ}
    (hx : Stands (.ofMantissaAndAccuracy m accuracy) x)
    (he : e ≤ Format.binary64.targetExponent (totalExponent m e)) :
    Rounded s (x * 2 ^ e) (roundWithAccuracy .binary64 s m e accuracy) := by
  obtain ⟨em, t, hshift, hnear⟩ := near_of_stands hx he
  have hleast := hnear.least
  have hfull := hnear.full
  simp only [roundWithAccuracy, hshift, shiftToTargetExponent_rounded hnear.le hleast]
  by_cases hlt : em.roundedMantissa < 2 ^ 53
  · simp only [hlt, if_true]
    by_cases hzero : em.roundedMantissa = 0
    · rw [dif_pos hzero]
      refine ⟨.zero s, rfl, t, em.roundedMantissa, hnear, ?_⟩
      rw [hzero]
      simp [magnitude]
    · rw [dif_neg hzero]
      exact ⟨.finite s _ ⟨hleast, hlt, hfull⟩, rfl, t, em.roundedMantissa, hnear, rfl⟩
  · have hpower : em.roundedMantissa = 2 ^ 53 := by
      have hle := hnear.le
      omega
    simp only [hlt, if_false]
    rw [dif_neg (by norm_num)]
    refine ⟨.finite s _ ⟨by omega, by norm_num, .inr le_rfl⟩, rfl, t, em.roundedMantissa, hnear,
      ?_⟩
    change ((2 ^ 52 : ℕ) : ℚ) * 2 ^ (t + 1) = em.roundedMantissa * 2 ^ t
    rw [hpower, zpow_add₀ (by norm_num)]
    push_cast
    ring

/-! ## What a rounded value keeps -/

namespace Rounded

variable {s : Sign} {q : ℚ} {u : UnpackedFloat}

/-- The least magnitude that is rounded to infinity. -/
def overflow : ℚ := 2 ^ (1024 : ℤ) - 2 ^ (970 : ℤ)

theorem magnitude_lt (h : Rounded s q u) (hq : q < overflow) : magnitude u < 2 ^ (1024 : ℤ) := by
  obtain ⟨t, m, hnear, hmagnitude⟩ := h.near
  have hpos := two_zpow_pos t
  have hm : (m : ℚ) ≤ 2 ^ (53 : ℤ) := by exact_mod_cast hnear.le
  rw [hmagnitude]
  rcases lt_trichotomy t 971 with ht | ht | ht
  · calc (m : ℚ) * 2 ^ t ≤ 2 ^ (53 : ℤ) * 2 ^ t := mul_le_mul_of_nonneg_right hm hpos.le
      _ = 2 ^ (53 + t) := (zpow_add₀ (by norm_num) _ _).symm
      _ < 2 ^ (1024 : ℤ) := zpow_lt_zpow_right₀ (by norm_num) (by omega)
  · -- at this exponent the value is more than half a unit below the next power of two
    have hq' : q / 2 ^ t < 2 ^ (53 : ℤ) - 1 / 2 := by
      rw [div_lt_iff₀ hpos, ht]
      calc q < 2 ^ (1024 : ℤ) - 2 ^ (970 : ℤ) := hq
        _ = (2 ^ (53 : ℤ) - 2 ^ (-1 : ℤ)) * 2 ^ (971 : ℤ) := by
            rw [sub_mul, ← zpow_add₀ (by norm_num), ← zpow_add₀ (by norm_num)]
            norm_num
        _ = (2 ^ (53 : ℤ) - 1 / 2) * 2 ^ (971 : ℤ) := by norm_num
    have hclose := (abs_le.mp hnear.close).2
    have hlt : (m : ℚ) < 2 ^ (53 : ℤ) := by linarith
    calc (m : ℚ) * 2 ^ t < 2 ^ (53 : ℤ) * 2 ^ t := mul_lt_mul_of_pos_right hlt hpos
      _ = 2 ^ (1024 : ℤ) := by
          rw [← zpow_add₀ (by norm_num), ht]
          rfl
  · have hle : (2 : ℚ) ^ (1024 : ℤ) ≤ q := by
      refine le_trans ?_ (hnear.above.resolve_left (by omega))
      exact zpow_le_zpow_right₀ (by norm_num) (by omega)
    exact absurd hq (not_lt.mpr ((sub_le_self _ (two_zpow_pos 970).le).trans hle))

/-- Below that, 64 bits hold the rounded value. -/
theorem held (h : Rounded s q u) (hq : q < overflow) : Held u := by
  have hlt := h.magnitude_lt hq
  cases h.number with
  | zero s => exact .zero s
  | @finite s m e hm hcanonical =>
    refine .finite s hm hcanonical ?_
    by_contra hlarge
    have hle : (2 : ℚ) ^ (e + 52) ≤ m * 2 ^ e := hcanonical.le (by omega)
    have hpow : (2 : ℚ) ^ (1024 : ℤ) ≤ 2 ^ (e + 52) :=
      zpow_le_zpow_right₀ (by norm_num) (by omega)
    exact absurd (hpow.trans hle) (not_le.mpr hlt)

end Rounded

namespace Near

variable {q : ℚ} {t : ℤ} {m n : ℕ}

/-- Below `2 ^ 53` the unit is a whole fraction of one. -/
theorem exists_unit (h : Near q t m) (hq : q < 2 ^ 53) : ∃ k : ℕ, (2 : ℚ) ^ t = (2 ^ k)⁻¹ := by
  have ht : t ≤ 0 := by
    rcases h.above with hleast | habove
    · omega
    · have hlt : (2 : ℚ) ^ (t + 52) < 2 ^ (53 : ℤ) := by
        rw [zpow_ofNat]
        exact habove.trans_lt hq
      have hexponent := (zpow_lt_zpow_iff_right₀ (by norm_num)).mp hlt
      omega
  obtain ⟨k, hk⟩ := Int.eq_ofNat_of_zero_le (neg_nonneg.mpr ht)
  refine ⟨k, ?_⟩
  rw [← neg_neg t, hk, zpow_neg, zpow_natCast]

theorem le_natCast (h : Near q t m) (hn : n < 2 ^ 53) (hq : q ≤ n) : (m : ℚ) * 2 ^ t ≤ n := by
  obtain ⟨k, hk⟩ := h.exists_unit (hq.trans_lt (by exact_mod_cast hn))
  have hpow : (0 : ℚ) < 2 ^ k := by positivity
  have hclose := (abs_le.mp h.close).2
  rw [hk, div_inv_eq_mul] at hclose
  have hscaled : q * 2 ^ k ≤ n * 2 ^ k := mul_le_mul_of_nonneg_right hq hpow.le
  have hlt : (m : ℚ) < (n * 2 ^ k + 1 : ℕ) := by
    push_cast
    linarith
  have hle : m ≤ n * 2 ^ k := Nat.lt_succ_iff.mp (by exact_mod_cast hlt)
  rw [hk, ← div_eq_mul_inv, div_le_iff₀ hpow]
  exact_mod_cast hle

theorem natCast_le (h : Near q t m) (hq : q < 2 ^ 53) (hn : n ≤ q) : (n : ℚ) ≤ m * 2 ^ t := by
  obtain ⟨k, hk⟩ := h.exists_unit hq
  have hpow : (0 : ℚ) < 2 ^ k := by positivity
  have hclose := (abs_le.mp h.close).1
  rw [hk, div_inv_eq_mul] at hclose
  have hscaled : (n : ℚ) * 2 ^ k ≤ q * 2 ^ k := mul_le_mul_of_nonneg_right hn hpow.le
  have hlt : ((n * 2 ^ k : ℕ) : ℚ) < (m + 1 : ℕ) := by
    push_cast
    linarith
  have hle : n * 2 ^ k ≤ m := Nat.lt_succ_iff.mp (by exact_mod_cast hlt)
  rw [hk, ← div_eq_mul_inv, le_div_iff₀ hpow]
  exact_mod_cast hle

/-- A lower bound of 53 bits stays one however large the value is. -/
theorem natCast_le_of_small (h : Near q t m) (hn : n ≤ 2 ^ 52) (hq : n ≤ q) :
    (n : ℚ) ≤ m * 2 ^ t := by
  by_cases hsmall : q < 2 ^ 53
  · exact h.natCast_le hsmall hq
  · -- beyond `2 ^ 53` the significand is full and the unit is more than one
    have hlarge : (2 : ℚ) ^ (53 : ℤ) < 2 ^ (t + 53) := by
      rw [zpow_ofNat]
      exact (not_lt.mp hsmall).trans_lt h.below
    have ht : 0 < t := by
      have hexponent := (zpow_lt_zpow_iff_right₀ (by norm_num)).mp hlarge
      omega
    have hm : n ≤ m := hn.trans (h.full.resolve_left (by omega))
    have hunit : (1 : ℚ) ≤ 2 ^ t := one_le_zpow₀ (by norm_num) ht.le
    calc (n : ℚ) ≤ m := by exact_mod_cast hm
      _ ≤ m * 2 ^ t := le_mul_of_one_le_right (Nat.cast_nonneg m) hunit

end Near

/-- `u` is the number `q`, rounded. -/
def RoundsTo (q : ℚ) (u : UnpackedFloat) : Prop :=
  ∃ s, Rounded s |q| u ∧ signed s |q| = q

namespace RoundsTo

variable {q : ℚ} {u : UnpackedFloat} {n : ℕ}

theorem self (hu : IsNumber u) : RoundsTo (value u) u := by
  refine ⟨signOf u, ?_, ?_⟩
  · rw [abs_value]
    exact rounded_self hu
  · rw [abs_value]
    rfl

theorem isNumber (h : RoundsTo q u) : IsNumber u := by
  obtain ⟨_, h, _⟩ := h
  exact h.number

theorem held (h : RoundsTo q u) (hq : |q| < Rounded.overflow) : Held u := by
  obtain ⟨_, h, _⟩ := h
  exact h.held hq

/-- Rounding does not pass a whole number. -/
theorem abs_le (h : RoundsTo q u) (hn : n < 2 ^ 53) (hq : |q| ≤ n) : |value u| ≤ n := by
  obtain ⟨s, h, _⟩ := h
  obtain ⟨t, m, hnear, hmagnitude⟩ := h.near
  rw [abs_value, hmagnitude]
  exact hnear.le_natCast hn hq

theorem nonneg (h : RoundsTo q u) (hq : 0 ≤ q) : 0 ≤ value u := by
  obtain ⟨s, h, hs⟩ := h
  rw [value, h.sign]
  cases s with
  | positive => exact magnitude_nonneg u
  | negative =>
    rw [signed, abs_of_nonneg hq] at hs
    have hzero : q = 0 := by linarith
    obtain ⟨t, m, hnear, hmagnitude⟩ := h.near
    have hle := hnear.le_natCast (n := 0) (by norm_num) (by simp [hzero])
    rw [Nat.cast_zero] at hle
    rw [signed, hmagnitude]
    linarith

theorem natCast_le (h : RoundsTo q u) (hn : n ≤ 2 ^ 52) (hq : n ≤ q) : n ≤ value u := by
  have hnonneg : 0 ≤ q := (Nat.cast_nonneg n).trans hq
  have hvalue := h.nonneg hnonneg
  obtain ⟨s, h, _⟩ := h
  obtain ⟨t, m, hnear, hmagnitude⟩ := h.near
  rw [abs_of_nonneg hnonneg] at hnear
  rw [← abs_of_nonneg hvalue, abs_value, hmagnitude]
  exact hnear.natCast_le_of_small hn hq

/-- A whole number below `2 ^ 53` is rounded to itself. -/
theorem eq_natCast (h : RoundsTo n u) (hn : n < 2 ^ 53) : value u = n := by
  have hnonneg : 0 ≤ value u := h.nonneg (Nat.cast_nonneg n)
  obtain ⟨s, h, _⟩ := h
  obtain ⟨t, m, hnear, hmagnitude⟩ := h.near
  have habs : |(n : ℚ)| = n := abs_of_nonneg (Nat.cast_nonneg n)
  rw [habs] at hnear
  rw [← abs_of_nonneg hnonneg, abs_value, hmagnitude]
  exact le_antisymm (hnear.le_natCast hn le_rfl)
    (hnear.natCast_le (by exact_mod_cast hn) le_rfl)

end RoundsTo

end BlockStage.Binary64
