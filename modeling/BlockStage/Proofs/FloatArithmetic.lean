import BlockStage.Proofs.Rounding

/-!
The arithmetic of floats as exact arithmetic with one rounding at the end: sums, differences,
products, quotients and decimals are the floats nearest to what they would be without rounding.
-/

namespace BlockStage.Binary64

open Float.Model (UnpackedFloat Format totalExponent)
open Float.Model.UnpackedFloat

/-! ## Signs -/

theorem signed_neg (s : Sign) (q : ℚ) : signed (-s) q = -signed s q := by
  cases s with
  | positive => rfl
  | negative => exact (neg_neg q).symm

theorem signed_mul (s t : Sign) (q r : ℚ) : signed (s * t) (q * r) = signed s q * signed t r := by
  cases s <;> cases t
  · exact (neg_mul_neg q r).symm
  · exact (neg_mul q r).symm
  · exact (mul_neg q r).symm
  · rfl

theorem signed_div (s t : Sign) (q r : ℚ) : signed (s / t) (q / r) = signed s q / signed t r := by
  cases s <;> cases t
  · exact (neg_div_neg_eq q r).symm
  · exact (neg_div r q).symm
  · exact (div_neg q).symm
  · rfl

theorem signed_apply (s : Sign) (m : ℕ) (q : ℚ) : (s.apply m : ℚ) * q = signed s (m * q) := by
  cases s with
  | positive => rfl
  | negative =>
    change ((-(m : ℤ) : ℤ) : ℚ) * q = -(m * q)
    push_cast
    ring

theorem roundsTo_of_rounded {s : Sign} {q : ℚ} {u : UnpackedFloat} (hq : 0 ≤ q)
    (h : Rounded s q u) : RoundsTo (signed s q) u := by
  refine ⟨s, ?_, ?_⟩
  · rw [abs_signed s hq]
    exact h
  · rw [abs_signed s hq]

/-! ## Rounding a significand and an exponent -/

theorem le_targetExponent {m : ℕ} {e : ℤ} (h : 52 ≤ m.log2 ∨ e ≤ -1074) :
    e ≤ Format.binary64.targetExponent (totalExponent m e) := by
  rw [targetExponent_eq, totalExponent]
  omega

theorem cast_shiftLeft (m k : ℕ) : ((m <<< k : ℕ) : ℚ) = m * 2 ^ k := by
  rw [Nat.shiftLeft_eq]
  push_cast
  rfl

theorem log2_shiftLeft {m : ℕ} (hm : m ≠ 0) (k : ℕ) : (m <<< k).log2 = m.log2 + k := by
  have hlow := Nat.mul_le_mul_right (2 ^ k) (Nat.log2_self_le hm)
  have hhigh := Nat.mul_lt_mul_of_pos_right (Nat.lt_log2_self (n := m)) (Nat.two_pow_pos k)
  rw [Nat.shiftLeft_eq, Nat.log2_eq_iff (by positivity)]
  refine ⟨?_, ?_⟩
  · rwa [pow_add]
  · rwa [show m.log2 + k + 1 = m.log2 + 1 + k by ring, pow_add]

/-- A lower exponent for the same number. -/
theorem decreaseExponent_value (m : ℕ) (e t : ℤ) :
    ((decreaseExponent m e t).1 : ℚ) * 2 ^ (decreaseExponent m e t).2 = m * 2 ^ e := by
  obtain ⟨k, hk⟩ : ∃ k, k = (e - t).toNat := ⟨_, rfl⟩
  have he : e = k + (e - k) := by ring
  simp only [decreaseExponent, ← hk]
  rw [cast_shiftLeft, mul_assoc, ← zpow_natCast, ← zpow_add₀ (by norm_num), ← he]

theorem round_rounded (s : Sign) {m : ℕ} (hm : 0 < m) (e : ℤ) :
    Rounded s (m * 2 ^ e) (UnpackedFloat.round .binary64 s m e) := by
  obtain ⟨t, ht⟩ : ∃ t, t = Format.binary64.targetExponent (totalExponent m e) := ⟨_, rfl⟩
  obtain ⟨k, hk⟩ : ∃ k, k = (e - t).toNat := ⟨_, rfl⟩
  have htotal : totalExponent (m <<< k) (e - k) = totalExponent m e := by
    rw [totalExponent, totalExponent, log2_shiftLeft hm.ne']
    push_cast
    ring
  have hvalue := decreaseExponent_value m e t
  simp only [decreaseExponent, ← hk] at hvalue
  simp only [UnpackedFloat.round, decreaseExponent, ← ht, ← hk]
  rw [← hvalue]
  apply roundWithAccuracy_rounded s (stands_exact _)
  rw [htotal, ← ht]
  omega

theorem normalize_roundsTo (n e : ℤ) (z : Sign) :
    RoundsTo (n * 2 ^ e) (UnpackedFloat.normalize .binary64 n e z) := by
  have hpos := two_zpow_pos e
  rcases lt_trichotomy n 0 with hn | hn | hn
  · have hnat : (((-n).toNat : ℕ) : ℚ) = -n := by
      have h : (((-n).toNat : ℤ) : ℚ) = ((-n : ℤ) : ℚ) := by rw [Int.toNat_of_nonneg (by omega)]
      exact_mod_cast h
    have h := round_rounded .negative (m := (-n).toNat) (by omega) e
    have h' := roundsTo_of_rounded (by positivity) h
    rw [signed, hnat, neg_mul, neg_neg] at h'
    unfold UnpackedFloat.normalize
    rw [compare_lt_iff_lt.mpr hn]
    exact h'
  · rw [hn, Int.cast_zero, zero_mul, ← value_zero z]
    exact RoundsTo.self (.zero z)
  · have hnat : ((n.toNat : ℕ) : ℚ) = n := by
      have h : ((n.toNat : ℤ) : ℚ) = ((n : ℤ) : ℚ) := by rw [Int.toNat_of_nonneg (by omega)]
      exact_mod_cast h
    have h := round_rounded .positive (m := n.toNat) (by omega) e
    have h' := roundsTo_of_rounded (by positivity) h
    rw [signed, hnat] at h'
    unfold UnpackedFloat.normalize
    rw [compare_gt_iff_gt.mpr hn]
    exact h'

/-! ## Arithmetic of unpacked floats -/

theorem roundsTo_zero (s : Sign) : RoundsTo 0 (.zero s) := by
  have h := RoundsTo.self (.zero s)
  rwa [value_zero] at h

/-- A float with its exponent lowered to one that is not above it. -/
theorem value_decreased (s : Sign) (m : ℕ) {e t : ℤ} (h : t ≤ e) :
    (s.apply (decreaseExponent m e t).1 : ℚ) * 2 ^ t = signed s (m * 2 ^ e) := by
  have hexponent : (decreaseExponent m e t).2 = t := by
    simp only [decreaseExponent]
    omega
  have hvalue := decreaseExponent_value m e t
  rw [hexponent] at hvalue
  rw [signed_apply, hvalue]

theorem add_roundsTo {u v : UnpackedFloat} (hu : IsNumber u) (hv : IsNumber v) :
    RoundsTo (value u + value v) (add .binary64 u v) := by
  cases hu with
  | zero s =>
    rw [value_zero, zero_add]
    cases hv with
    | zero t =>
      rw [value_zero]
      simp only [add]
      split
      · exact roundsTo_zero s
      · exact roundsTo_zero .positive
    | finite t hn hn' => exact RoundsTo.self (.finite t hn hn')
  | @finite s m e hm hm' =>
    cases hv with
    | zero t =>
      rw [value_zero, add_zero]
      exact RoundsTo.self (.finite s hm hm')
    | @finite t n f hn hn' =>
      have hsum := normalize_roundsTo (s.apply (decreaseExponent m e (min e f)).1 +
        t.apply (decreaseExponent n f (min e f)).1) (min e f) .positive
      push_cast at hsum
      rw [add_mul, value_decreased s m (min_le_left e f),
        value_decreased t n (min_le_right e f)] at hsum
      exact hsum

theorem sub_roundsTo {u v : UnpackedFloat} (hu : IsNumber u) (hv : IsNumber v) :
    RoundsTo (value u - value v) (sub .binary64 u v) := by
  cases hu with
  | zero s =>
    rw [value_zero, zero_sub]
    cases hv with
    | zero t =>
      rw [value_zero, neg_zero]
      simp only [sub]
      split
      · exact roundsTo_zero s
      · exact roundsTo_zero .positive
    | finite t hn hn' =>
      have h := RoundsTo.self (.finite (-t) hn hn')
      rwa [value, signOf, signed_neg] at h
  | @finite s m e hm hm' =>
    cases hv with
    | zero t =>
      rw [value_zero, sub_zero]
      exact RoundsTo.self (.finite s hm hm')
    | @finite t n f hn hn' =>
      have hdifference := normalize_roundsTo (s.apply (decreaseExponent m e (min e f)).1 -
        t.apply (decreaseExponent n f (min e f)).1) (min e f) .positive
      push_cast at hdifference
      rw [sub_mul, value_decreased s m (min_le_left e f),
        value_decreased t n (min_le_right e f)] at hdifference
      exact hdifference

/-- The product of two floats, in canonical form or not, as long as no bit is missing. -/
theorem mul_finite_roundsTo (s t : Sign) {m n : ℕ} {e f : ℤ} (hm : 0 < m) (hn : 0 < n)
    (h : 2 ^ 52 ≤ m * n ∨ e + f ≤ -1074) :
    RoundsTo (signed s (m * 2 ^ e) * signed t (n * 2 ^ f))
      (mul .binary64 (.finite s m e hm) (.finite t n f hn)) := by
  have hbits : 52 ≤ (m * n).log2 ∨ e + f ≤ -1074 := by
    refine h.imp_left fun hfull => ?_
    exact (Nat.le_log2 (Nat.mul_pos hm hn).ne').mpr hfull
  have hproduct := roundWithAccuracy_rounded (s * t) (stands_exact (m * n))
    (le_targetExponent hbits)
  have hvalue : ((m * n : ℕ) : ℚ) * 2 ^ (e + f) = m * 2 ^ e * (n * 2 ^ f) := by
    rw [zpow_add₀ (by norm_num)]
    push_cast
    ring
  rw [hvalue] at hproduct
  rw [← signed_mul]
  exact roundsTo_of_rounded (by positivity) hproduct

theorem mul_roundsTo {u v : UnpackedFloat} (hu : IsNumber u) (hv : IsNumber v) :
    RoundsTo (value u * value v) (mul .binary64 u v) := by
  cases hu with
  | zero s =>
    rw [value_zero, zero_mul]
    cases hv with
    | zero t => exact roundsTo_zero (s * t)
    | finite t hn hn' => exact roundsTo_zero (s * t)
  | @finite s m e hm hm' =>
    cases hv with
    | zero t =>
      rw [value_zero, mul_zero]
      exact roundsTo_zero (s * t)
    | @finite t n f hn hn' =>
      apply mul_finite_roundsTo s t hm hn
      rcases hm'.full with he | hfull
      · rcases hn'.full with hf | hfull
        · right
          omega
        · exact .inl (hfull.trans (Nat.le_mul_of_pos_left n hm))
      · exact .inl (hfull.trans (Nat.le_mul_of_pos_right m hn))

/-- The whole part of a quotient has as many bits as the quotient asks for. -/
theorem totalExponent_quotient {m n : ℕ} (hm : 0 < m) (hn : 0 < n) (e f : ℤ) {k : ℕ} {t : ℤ}
    (ht : e - f = t + k) :
    totalExponent m e - totalExponent n f ≤ totalExponent ((m <<< k) / n) t := by
  simp only [totalExponent]
  by_cases hshort : (m.log2 : ℤ) + k ≤ n.log2
  · omega
  · have hbits : 2 ^ (m.log2 + k - (n.log2 + 1)) ≤ (m <<< k) / n := by
      rw [Nat.le_div_iff_mul_le hn, Nat.shiftLeft_eq]
      calc 2 ^ (m.log2 + k - (n.log2 + 1)) * n
          ≤ 2 ^ (m.log2 + k - (n.log2 + 1)) * 2 ^ (n.log2 + 1) :=
            Nat.mul_le_mul_left _ Nat.lt_log2_self.le
        _ = 2 ^ (m.log2 + k) := by
            rw [← pow_add]
            congr 1
            omega
        _ = 2 ^ m.log2 * 2 ^ k := pow_add ..
        _ ≤ m * 2 ^ k := Nat.mul_le_mul_right _ (Nat.log2_self_le hm.ne')
    have hne : (m <<< k) / n ≠ 0 := (Nat.two_pow_pos _).trans_le hbits |>.ne'
    have hlog := (Nat.le_log2 hne).mpr hbits
    omega

theorem div_finite_roundsTo (s t : Sign) {m n : ℕ} {e f : ℤ} (hm : 0 < m) (hn : 0 < n) :
    RoundsTo (signed s (m * 2 ^ e) / signed t (n * 2 ^ f))
      (div .binary64 (.finite s m e hm) (.finite t n f hn)) := by
  obtain ⟨d, hd⟩ : ∃ d, d = min (e - f)
    (Format.binary64.targetExponent (totalExponent m e - totalExponent n f)) := ⟨_, rfl⟩
  obtain ⟨k, hk⟩ : ∃ k, k = (e - f - d).toNat := ⟨_, rfl⟩
  have hshift : e - f = d + k := by omega
  have hstands := stands_fraction ((m <<< k) / n) ((m <<< k) % n) n (Nat.mod_lt _ hn)
  have hexponent : d ≤ Format.binary64.targetExponent (totalExponent ((m <<< k) / n) d) := by
    have htotal := totalExponent_quotient hm hn e f hshift
    rw [targetExponent_eq] at hd ⊢
    omega
  have hquotient := roundWithAccuracy_rounded (s / t) hstands hexponent
  have hn' : (n : ℚ) ≠ 0 := by exact_mod_cast hn.ne'
  have hvalue : (((m <<< k) / n : ℕ) + ((m <<< k) % n : ℕ) / n : ℚ) * 2 ^ d =
      m * 2 ^ e / (n * 2 ^ f) := by
    have hdiv : (((m <<< k) / n : ℕ) : ℚ) * n + ((m <<< k) % n : ℕ) = m * 2 ^ k := by
      rw [← cast_shiftLeft]
      exact_mod_cast Nat.div_add_mod' (m <<< k) n
    have hpow : (2 : ℚ) ^ e = 2 ^ d * 2 ^ k * 2 ^ f := by
      rw [← zpow_natCast, ← zpow_add₀ (by norm_num), ← zpow_add₀ (by norm_num)]
      congr 1
      omega
    have hf := (two_zpow_pos f).ne'
    rw [hpow]
    field_simp
    rw [hdiv]
  rw [hvalue] at hquotient
  rw [← signed_div]
  have hresult := roundsTo_of_rounded (by positivity) hquotient
  simp only [div, divCore, ← hd, ← hk]
  exact hresult

theorem div_roundsTo {u v : UnpackedFloat} (hu : IsNumber u) (hv : IsNumber v)
    (hne : value v ≠ 0) : RoundsTo (value u / value v) (div .binary64 u v) := by
  cases hv with
  | zero t => exact absurd (value_zero t) hne
  | finite t hn hn' =>
    cases hu with
    | zero s =>
      rw [value_zero, zero_div]
      exact roundsTo_zero (s / t)
    | finite s hm hm' => exact div_finite_roundsTo s t hm hn

/-! ## Arithmetic of floats -/

/-- `x` is the float nearest to `q`, or an infinity if `q` is too large. -/
def Nearest (q : ℚ) (x : Float) : Prop := ∃ u, x = Float.ofModel (.pack u) ∧ RoundsTo q u

section

variable {x y : Float}

theorem add_nearest (hx : x.isFinite) (hy : y.isFinite) : Nearest (valueOf x + valueOf y) (x + y) :=
  ⟨_, rfl, add_roundsTo (isNumber_of_isFinite hx) (isNumber_of_isFinite hy)⟩

theorem sub_nearest (hx : x.isFinite) (hy : y.isFinite) : Nearest (valueOf x - valueOf y) (x - y) :=
  ⟨_, rfl, sub_roundsTo (isNumber_of_isFinite hx) (isNumber_of_isFinite hy)⟩

theorem mul_nearest (hx : x.isFinite) (hy : y.isFinite) : Nearest (valueOf x * valueOf y) (x * y) :=
  ⟨_, rfl, mul_roundsTo (isNumber_of_isFinite hx) (isNumber_of_isFinite hy)⟩

theorem div_nearest (hx : x.isFinite) (hy : y.isFinite) (hne : valueOf y ≠ 0) :
    Nearest (valueOf x / valueOf y) (x / y) :=
  ⟨_, rfl, div_roundsTo (isNumber_of_isFinite hx) (isNumber_of_isFinite hy) hne⟩

end

theorem two_zpow_971 : (2 : ℚ) ^ (971 : ℤ) = 2 ^ (970 : ℤ) + 2 ^ (970 : ℤ) := by
  rw [← two_mul, show (971 : ℤ) = 1 + 970 by norm_num, zpow_add₀ (by norm_num), zpow_one]

/-- The greatest float has 53 bits, all of them set. -/
theorem magnitude_le_greatest {u : UnpackedFloat} (hu : IsNumber u) (hheld : Held u) :
    magnitude u ≤ 2 ^ (1024 : ℤ) - 2 ^ (971 : ℤ) := by
  cases hu with
  | zero s =>
    have hle : (2 : ℚ) ^ (971 : ℤ) ≤ 2 ^ (1024 : ℤ) :=
      zpow_le_zpow_right₀ (by norm_num) (by norm_num)
    exact sub_nonneg.mpr hle
  | @finite s m e hm hcanonical =>
    cases hheld with
    | finite _ _ _ he =>
      have hm' : (m : ℚ) ≤ 2 ^ (53 : ℤ) - 1 := by
        have hlt : (m : ℚ) + 1 ≤ 2 ^ (53 : ℤ) := by exact_mod_cast hcanonical.narrow
        linarith
      have hpow : (2 : ℚ) ^ e ≤ 2 ^ (971 : ℤ) := zpow_le_zpow_right₀ (by norm_num) he
      calc (m : ℚ) * 2 ^ e ≤ (2 ^ (53 : ℤ) - 1) * 2 ^ (971 : ℤ) :=
            mul_le_mul hm' hpow (two_zpow_pos e).le (by norm_num)
        _ = 2 ^ (1024 : ℤ) - 2 ^ (971 : ℤ) := by
            rw [sub_mul, one_mul, ← zpow_add₀ (by norm_num)]
            norm_num

/-- Finite floats stay half a unit below what is rounded to infinity. -/
theorem abs_valueOf_add_le {x : Float} (hx : x.isFinite) :
    |valueOf x| + 2 ^ (970 : ℤ) ≤ Rounded.overflow := by
  have hbound := magnitude_le_greatest (isNumber_of_isFinite hx) (held_unpack x)
  rw [valueOf, abs_value]
  rw [two_zpow_971] at hbound
  unfold Rounded.overflow
  linarith

namespace Nearest

variable {q : ℚ} {x : Float} {n : ℕ}

theorem isFinite (h : Nearest q x) (hq : |q| < Rounded.overflow) : x.isFinite := by
  obtain ⟨u, rfl, hu⟩ := h
  have hunpack := unpack_ofModel_pack (hu.held hq)
  change (Float.ofModel (.pack u)).toModel.unpack.isFinite = true
  rw [hunpack]
  cases hu.isNumber with
  | zero s => rfl
  | finite s hm hm' => rfl

theorem isNaN (h : Nearest q x) : x.isNaN = false := by
  obtain ⟨u, rfl, hu⟩ := h
  change (UnpackedFloat.unpack .binary64 (UnpackedFloat.pack .binary64 u)).isNaN = false
  cases hu.isNumber with
  | zero s =>
    rw [unpack_pack (.zero s)]
    rfl
  | @finite s m e hm hcanonical =>
    by_cases he : e ≤ 971
    · rw [unpack_pack (.finite s hm hcanonical he)]
      rfl
    · rw [unpack_pack_of_large s hm (by omega)]
      rfl

theorem lt_overflow (hn : n < 2 ^ 53) (hq : |q| ≤ n) : |q| < Rounded.overflow := by
  have hcast : (n : ℚ) < 2 ^ (53 : ℤ) := by exact_mod_cast hn
  have hpow : (2 : ℚ) ^ (53 : ℤ) ≤ 2 ^ (970 : ℤ) := zpow_le_zpow_right₀ (by norm_num) (by norm_num)
  have htop : (2 : ℚ) ^ (971 : ℤ) ≤ 2 ^ (1024 : ℤ) :=
    zpow_le_zpow_right₀ (by norm_num) (by norm_num)
  rw [two_zpow_971] at htop
  exact (hq.trans_lt (hcast.trans_le hpow)).trans_le (le_sub_iff_add_le.mpr htop)

theorem valueOf_eq (hu : RoundsTo q u) (hq : |q| < Rounded.overflow) :
    valueOf (Float.ofModel (.pack u)) = value u := by
  rw [valueOf, unpack_ofModel_pack (hu.held hq)]

/-- A float nearest to something small enough is within the same whole bounds. -/
theorem abs_le (h : Nearest q x) (hn : n < 2 ^ 53) (hq : |q| ≤ n) :
    x.isFinite ∧ |valueOf x| ≤ n := by
  have hlt := lt_overflow hn hq
  refine ⟨h.isFinite hlt, ?_⟩
  obtain ⟨u, rfl, hu⟩ := h
  rw [valueOf_eq hu hlt]
  exact hu.abs_le hn hq

theorem nonneg (h : Nearest q x) (hlt : |q| < Rounded.overflow) (hq : 0 ≤ q) : 0 ≤ valueOf x := by
  obtain ⟨u, rfl, hu⟩ := h
  rw [valueOf_eq hu hlt]
  exact hu.nonneg hq

theorem within (h : Nearest q x) (hn : n < 2 ^ 53) (hlow : 0 ≤ q) (hhigh : q ≤ n) :
    x.isFinite ∧ 0 ≤ valueOf x ∧ valueOf x ≤ n := by
  have hq : |q| ≤ n := by rwa [abs_of_nonneg hlow]
  obtain ⟨hfinite, hvalue⟩ := h.abs_le hn hq
  have hnonneg := h.nonneg (lt_overflow hn hq) hlow
  rw [abs_of_nonneg hnonneg] at hvalue
  exact ⟨hfinite, hnonneg, hvalue⟩

theorem natCast_le (h : Nearest q x) (hlt : |q| < Rounded.overflow) (hn : n ≤ 2 ^ 52)
    (hq : n ≤ q) : n ≤ valueOf x := by
  obtain ⟨u, rfl, hu⟩ := h
  rw [valueOf_eq hu hlt]
  exact hu.natCast_le hn hq

theorem eq_natCast (h : Nearest n x) (hn : n < 2 ^ 53) : x.isFinite ∧ valueOf x = n := by
  have hlt : |(n : ℚ)| < Rounded.overflow := lt_overflow hn (abs_of_nonneg (Nat.cast_nonneg n)).le
  refine ⟨h.isFinite hlt, ?_⟩
  obtain ⟨u, rfl, hu⟩ := h
  rw [valueOf_eq hu hlt]
  exact hu.eq_natCast hn

end Nearest

/-! ## Negation -/

theorem value_neg {u : UnpackedFloat} (hu : IsNumber u) : value u.neg = -value u := by
  cases hu with
  | zero s => exact signed_neg s 0
  | finite s hm h => exact signed_neg s _

theorem held_neg {u : UnpackedFloat} (hu : Held u) : Held u.neg := by
  cases hu with
  | notANumber => exact .notANumber
  | infinity s => exact .infinity (-s)
  | zero s => exact .zero (-s)
  | finite s hm h he => exact .finite (-s) hm h he

theorem unpack_neg (x : Float) : (-x).toModel.unpack = x.toModel.unpack.neg :=
  unpack_ofModel_pack (held_neg (held_unpack x))

theorem isFinite_neg (x : Float) : (-x).isFinite = x.isFinite := by
  change (-x).toModel.unpack.isFinite = x.toModel.unpack.isFinite
  rw [unpack_neg]
  cases x.toModel.unpack <;> rfl

theorem valueOf_neg {x : Float} (hx : x.isFinite) : valueOf (-x) = -valueOf x := by
  rw [valueOf, unpack_neg]
  exact value_neg (isNumber_of_isFinite hx)

/-! ## Decimals -/

/-- A positive float in whole numbers: `m * 2 ^ e` is the power of ten. -/
def isTenPow (k : ℕ) : UnpackedFloat → Bool
  | .finite .positive m e _ => m * 2 ^ e.toNat == 10 ^ k * 2 ^ (-e).toNat
  | _ => false

theorem value_of_isTenPow {k : ℕ} {u : UnpackedFloat} (h : isTenPow k u = true) :
    u.isFinite ∧ value u = 10 ^ k := by
  unfold isTenPow at h
  split at h
  · next m e hm =>
    refine ⟨rfl, ?_⟩
    have hnat : m * 2 ^ e.toNat = 10 ^ k * 2 ^ (-e).toNat := eq_of_beq h
    have hcast : (m : ℚ) * 2 ^ e.toNat = 10 ^ k * 2 ^ (-e).toNat := by exact_mod_cast hnat
    rw [value_positive]
    rcases le_total 0 e with he | he
    · obtain ⟨j, rfl⟩ := Int.eq_ofNat_of_zero_le he
      simpa using hcast
    · obtain ⟨j, hj⟩ := Int.eq_ofNat_of_zero_le (neg_nonneg.mpr he)
      obtain rfl : e = -j := by omega
      rw [zpow_neg, zpow_natCast, ← div_eq_mul_inv, div_eq_iff (by positivity)]
      simpa using hcast
  · cases h

theorem exactlyRepresentable (k : Fin Float.exactlyRepresentablePowersOfTen.size) :
    isTenPow k Float.exactlyRepresentablePowersOfTen[k].toModel.unpack = true := by
  revert k
  decide +kernel

theorem valueOf_exactlyRepresentable {k : ℕ} (hk : k < Float.exactlyRepresentablePowersOfTen.size) :
    (Float.exactlyRepresentablePowersOfTen[k]).isFinite ∧
      valueOf Float.exactlyRepresentablePowersOfTen[k] = 10 ^ k :=
  value_of_isTenPow (exactlyRepresentable ⟨k, hk⟩)

/-- A whole significand by a power of ten, worked out with 53 more bits. -/
theorem mul_tenPow_roundsTo {n : ℕ} (k : ℕ) (hn : 0 < n <<< 53) (hpow : 0 < 10 ^ k) :
    RoundsTo (n * 10 ^ k)
      (mul .binary64 (.finite .positive (n <<< 53) (-53) hn)
        (.finite .positive (10 ^ k) 0 hpow)) := by
  have hfull : 2 ^ 52 ≤ n <<< 53 * 10 ^ k := by
    rw [Nat.shiftLeft_eq] at hn ⊢
    have hle : 2 ^ 53 ≤ n * 2 ^ 53 := Nat.le_mul_of_pos_left _ (Nat.pos_of_mul_pos_right hn)
    exact (by norm_num : 2 ^ 52 ≤ 2 ^ 53).trans (hle.trans (Nat.le_mul_of_pos_right _ hpow))
  have h := mul_finite_roundsTo .positive .positive hn hpow (e := -53) (f := 0) (.inl hfull)
  have hvalue : ((n <<< 53 : ℕ) : ℚ) * 2 ^ (-53 : ℤ) * (((10 ^ k : ℕ) : ℚ) * 2 ^ (0 : ℤ)) =
      n * 10 ^ k := by
    rw [cast_shiftLeft, mul_assoc (n : ℚ), ← zpow_natCast, ← zpow_add₀ (by norm_num)]
    push_cast
    ring
  rw [signed, signed, hvalue] at h
  exact h

theorem div_tenPow_roundsTo {n : ℕ} (k : ℕ) (hn : 0 < n) (hpow : 0 < 10 ^ k) :
    RoundsTo (n / 10 ^ k)
      (div .binary64 (.finite .positive n 0 hn) (.finite .positive (10 ^ k) 0 hpow)) := by
  have h := div_finite_roundsTo .positive .positive (e := 0) (f := 0) hn hpow
  rw [signed, signed, zpow_zero, mul_one, mul_one] at h
  exact_mod_cast h

theorem ofScientific_roundsTo (n : ℕ) {k : ℕ} (hk : k ≤ 2048) :
    RoundsTo (n * 10 ^ k) (ofScientific .binary64 n k) ∧
      RoundsTo (n / 10 ^ k) (ofScientific .binary64 n (-k)) := by
  unfold ofScientific
  by_cases hzero : n = 0
  · rw [dif_pos hzero, dif_pos hzero, hzero, Nat.cast_zero, zero_mul, zero_div]
    exact ⟨roundsTo_zero .positive, roundsTo_zero .positive⟩
  · have hn := Nat.pos_of_ne_zero hzero
    rw [dif_neg hzero, dif_neg hzero]
    have hlarge (e : ℤ) (he : e ≤ 2048) : ¬ e > 2 ^ Format.exponentBits .binary64 := not_lt.mpr he
    have hsmall (e : ℤ) (he : -2048 ≤ e) :
        ¬ e < -((2 ^ Format.exponentBits .binary64 : ℤ) + n.log2) := by
      change ¬ e < -(2048 + (n.log2 : ℤ))
      omega
    rw [if_neg (hlarge _ (by omega)), if_neg (hlarge _ (by omega)), if_neg (hsmall _ (by omega)),
      if_neg (hsmall _ (by omega)), if_pos (Int.natCast_nonneg k)]
    refine ⟨mul_tenPow_roundsTo k _ _, ?_⟩
    by_cases hk0 : k = 0
    · subst hk0
      have hpos : 0 < n <<< 53 := by
        rw [Nat.shiftLeft_eq]
        positivity
      have hone : (n : ℚ) / 10 ^ 0 = n * 10 ^ 0 := by norm_num
      rw [hone, if_pos (by norm_num)]
      exact mul_tenPow_roundsTo 0 hpos Nat.one_pos
    · rw [if_neg (by omega)]
      simp only [neg_neg, Int.toNat_natCast]
      exact div_tenPow_roundsTo k hn _

theorem toFloat_nearest (n : UInt64) : Nearest n.toNat n.toFloat := by
  refine ⟨_, rfl, ?_⟩
  have h := normalize_roundsTo n.toNat 0 .positive
  rw [zpow_zero, mul_one] at h
  exact_mod_cast h

/-- The float of a decimal is the nearest one, by either way of working it out. -/
theorem ofScientific_nearest (n : ℕ) {k : ℕ} (hk : k ≤ 2048) :
    Nearest (n * 10 ^ k) (Float.ofScientific n false k) ∧
      Nearest (n / 10 ^ k) (Float.ofScientific n true k) := by
  unfold Float.ofScientific
  split
  · next h =>
    obtain ⟨hn, hk'⟩ := h
    have hnat : n.toUInt64.toNat = n := by
      change (UInt64.ofNat n).toNat = n
      rw [UInt64.toNat_ofNat', Nat.mod_eq_of_lt (by omega)]
    have hfloat := toFloat_nearest n.toUInt64
    rw [hnat] at hfloat
    obtain ⟨hfinite, hvalue⟩ := hfloat.eq_natCast hn
    have hsize : k < Float.exactlyRepresentablePowersOfTen.size := Nat.lt_succ_of_le hk'
    obtain ⟨hfinite', hvalue'⟩ := valueOf_exactlyRepresentable hsize
    have hne : valueOf Float.exactlyRepresentablePowersOfTen[k] ≠ 0 := by
      rw [hvalue']
      positivity
    have hmul := mul_nearest hfinite hfinite'
    have hdiv := div_nearest hfinite hfinite' hne
    rw [hvalue, hvalue'] at hmul hdiv
    exact ⟨hmul, hdiv⟩
  · obtain ⟨hmul, hdiv⟩ := ofScientific_roundsTo n hk
    have hneg : Int.negOfNat k = -k := Int.negOfNat_eq
    rw [← hneg] at hdiv
    exact ⟨⟨_, rfl, hmul⟩, ⟨_, rfl, hdiv⟩⟩

theorem ofNat_nearest (n : ℕ) : Nearest n (Float.ofNat n) := by
  have h := (ofScientific_nearest n (k := 0) (by norm_num)).1
  rw [pow_zero, mul_one] at h
  exact h

theorem ofNat_eq {n : ℕ} (hn : n < 2 ^ 53) :
    (Float.ofNat n).isFinite ∧ valueOf (Float.ofNat n) = n :=
  (ofNat_nearest n).eq_natCast hn

end BlockStage.Binary64
