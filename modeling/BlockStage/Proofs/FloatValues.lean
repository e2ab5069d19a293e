import Mathlib

/-!
Floats of 64 bits and the numbers that they stand for. The bits of a finite float give a significand
and an exponent in canonical form, packing and unpacking keep them, and floats in canonical form are
compared as their numbers are.
-/

namespace BlockStage.Binary64

open Float.Model (UnpackedFloat Format)
open Float.Model.UnpackedFloat (Sign)

/-! ## What the bits hold -/

/-- Significand and exponent as 64 bits keep them: 53 bits, fewer at the least exponent only. -/
structure IsCanonical (m : ℕ) (e : ℤ) : Prop where
  least : -1074 ≤ e
  narrow : m < 2 ^ 53
  full : e = -1074 ∨ 2 ^ 52 ≤ m

/-- The floats that 64 bits can hold. -/
inductive Held : UnpackedFloat → Prop where
  | notANumber : Held .notANumber
  | infinity (s : Sign) : Held (.infinity s)
  | zero (s : Sign) : Held (.zero s)
  | finite (s : Sign) {m : ℕ} {e : ℤ} (hm : 0 < m) (h : IsCanonical m e) (he : e ≤ 971) :
      Held (.finite s m e hm)

theorem exponentBias_binary64 : Format.exponentBias .binary64 = 1023 := by decide

theorem toNat_one_append (fraction : BitVec 52) :
    (1#1 ++ fraction).toNat = 2 ^ 52 + fraction.toNat := by
  have h := fraction.isLt
  rw [BitVec.toNat_append, ← Nat.shiftLeft_add_eq_or_of_lt h, Nat.shiftLeft_eq]
  rfl

theorem unpack_held (b : BitVec 64) : Held (UnpackedFloat.unpack .binary64 b) := by
  have hfraction : (@UnpackedFloat.unpackMantissa .binary64 b).toNat < 2 ^ 52 :=
    BitVec.isLt _
  have hexponent : (@UnpackedFloat.unpackExponent .binary64 b).toNat < 2 ^ 11 :=
    BitVec.isLt _
  simp only [UnpackedFloat.unpack, exponentBias_binary64]
  split
  · split
    · exact .infinity _
    · exact .notANumber
  · next hones =>
    have hne : (@UnpackedFloat.unpackExponent .binary64 b).toNat ≠ 2047 :=
      fun h => hones (BitVec.eq_of_toNat_eq h)
    split
    · next hzero =>
      split
      · exact .zero _
      · apply Held.finite
        · refine ⟨?_, by omega, .inl ?_⟩
          · rw [hzero]
            decide
          · rw [hzero]
            decide
        · rw [hzero]
          decide
    · next hzero =>
      have hpos : (@UnpackedFloat.unpackExponent .binary64 b).toNat ≠ 0 :=
        fun h => hzero (BitVec.eq_of_toNat_eq h)
      apply Held.finite
      · refine ⟨by omega, ?_, .inr ?_⟩
        · rw [toNat_one_append]
          omega
        · rw [toNat_one_append]
          omega
      · omega

theorem unpack_packComponents_normal (s : Sign) {m : ℕ} {e : ℤ} (hm : 0 < m) (hlow : 2 ^ 52 ≤ m)
    (hhigh : m < 2 ^ 53) (hleast : -1074 ≤ e) (hmost : e ≤ 971) :
    UnpackedFloat.unpack .binary64 (UnpackedFloat.packComponents .binary64 s
      (BitVec.ofNat 11 (e + 1075).toNat) (BitVec.ofNat 52 m)) = .finite s m e hm := by
  have hexponent : (BitVec.ofNat 11 (e + 1075).toNat).toNat = (e + 1075).toNat := by
    rw [BitVec.toNat_ofNat, Nat.mod_eq_of_lt (by omega)]
  have hfraction : (BitVec.ofNat 52 m).toNat = m - 2 ^ 52 := by
    rw [BitVec.toNat_ofNat]
    omega
  have hones : ¬ BitVec.ofNat 11 (e + 1075).toNat = -1#11 := by
    intro h
    have h' : (e + 1075).toNat = 2047 := by rw [← hexponent, h]; rfl
    omega
  have hzero : ¬ BitVec.ofNat 11 (e + 1075).toNat = 0#11 := by
    intro h
    have h' : (e + 1075).toNat = 0 := by rw [← hexponent, h]; rfl
    omega
  have hm' : (1#1 ++ BitVec.ofNat 52 m).toNat = m := by
    rw [toNat_one_append, hfraction]
    omega
  have he' : ((BitVec.ofNat 11 (e + 1075).toNat).toNat : ℤ) - ((1023 : ℕ) + (52 : ℕ)) = e := by
    rw [hexponent]
    omega
  simp only [UnpackedFloat.unpack, exponentBias_binary64,
    UnpackedFloat.unpackMantissa_packComponents, UnpackedFloat.unpackExponent_packComponents,
    UnpackedFloat.unpackSign_packComponents, Sign.ofBitVec_toBitVec]
  rw [if_neg hones, if_neg hzero]
  simp only [hm', he']

theorem unpack_packComponents_subnormal (s : Sign) {m : ℕ} (hm : 0 < m) (hhigh : m < 2 ^ 52) :
    UnpackedFloat.unpack .binary64 (UnpackedFloat.packComponents .binary64 s 0#11
      (BitVec.ofNat 52 m)) = .finite s m (-1074) hm := by
  have hfraction : (BitVec.ofNat 52 m).toNat = m := by
    rw [BitVec.toNat_ofNat, Nat.mod_eq_of_lt hhigh]
  have hnonzero : ¬ BitVec.ofNat 52 m = 0#52 := by
    intro h
    rw [h] at hfraction
    exact hm.ne hfraction
  simp only [UnpackedFloat.unpack, exponentBias_binary64,
    UnpackedFloat.unpackMantissa_packComponents, UnpackedFloat.unpackExponent_packComponents,
    UnpackedFloat.unpackSign_packComponents, Sign.ofBitVec_toBitVec]
  rw [if_neg (by decide), if_pos trivial, dif_neg hnonzero]
  simp only [hfraction]
  rfl

theorem log2_eq {m : ℕ} (hlow : 2 ^ 52 ≤ m) (hhigh : m < 2 ^ 53) : m.log2 = 52 :=
  (Nat.log2_eq_iff (by omega)).mpr ⟨hlow, hhigh⟩

theorem pack_finite (s : Sign) {m : ℕ} {e : ℤ} (hm : 0 < m) (he : e ≤ 971) :
    UnpackedFloat.pack .binary64 (.finite s m e hm) =
      if m.log2 = 52 then
        UnpackedFloat.packComponents .binary64 s (BitVec.ofNat 11 (e + 1075).toNat)
          (BitVec.ofNat 52 m)
      else UnpackedFloat.packComponents .binary64 s 0#11 (BitVec.ofNat 52 m) := by
  have hbias : e + (1023 : ℕ) + (52 : ℕ) = e + 1075 := by omega
  have hbits : m.log2 + 1 = Format.mantissaBits .binary64 ↔ m.log2 = 52 := Nat.succ_inj
  simp only [UnpackedFloat.pack, exponentBias_binary64, hbias, hbits]
  rw [if_neg (by omega)]

/-- What 64 bits can hold, they hold. -/
theorem unpack_pack {u : UnpackedFloat} (h : Held u) :
    UnpackedFloat.unpack .binary64 (UnpackedFloat.pack .binary64 u) = u := by
  cases h with
  | notANumber => rfl
  | infinity s => cases s <;> rfl
  | zero s => cases s <;> rfl
  | @finite s m e hm h he =>
    obtain ⟨hleast, hnarrow, hfull⟩ := h
    rw [pack_finite s hm he]
    by_cases hnormal : 2 ^ 52 ≤ m
    · rw [if_pos (log2_eq hnormal hnarrow)]
      exact unpack_packComponents_normal s hm hnormal hnarrow hleast he
    · have hlog : m.log2 < 52 := (Nat.log2_lt hm.ne').mpr (by omega)
      obtain rfl : e = -1074 := hfull.resolve_right hnormal
      rw [if_neg hlog.ne]
      exact unpack_packComponents_subnormal s hm (by omega)

/-- A float beyond the greatest finite one is packed as an infinity. -/
theorem unpack_pack_of_large (s : Sign) {m : ℕ} {e : ℤ} (hm : 0 < m) (he : 971 < e) :
    UnpackedFloat.unpack .binary64 (UnpackedFloat.pack .binary64 (.finite s m e hm)) =
      .infinity s := by
  have hlarge : 2 ^ 11 ≤ (e + (1023 : ℕ) + (52 : ℕ)).toNat + 1 := by omega
  have hpack : UnpackedFloat.pack .binary64 (.finite s m e hm) =
      UnpackedFloat.pack .binary64 (.infinity s) := by
    simp only [UnpackedFloat.pack, exponentBias_binary64]
    rw [if_pos hlarge]
  rw [hpack]
  exact unpack_pack (.infinity s)

/-! ## Values -/

/-- The number with the given sign and magnitude. -/
def signed : Sign → ℚ → ℚ
  | .positive, q => q
  | .negative, q => -q

def signOf : UnpackedFloat → Sign
  | .notANumber => .positive
  | .infinity s => s
  | .zero s => s
  | .finite s _ _ _ => s

/-- The distance from zero of a finite float. -/
def magnitude : UnpackedFloat → ℚ
  | .finite _ m e _ => m * 2 ^ e
  | _ => 0

/-- The number that a finite float stands for. -/
def value (u : UnpackedFloat) : ℚ := signed (signOf u) (magnitude u)

theorem magnitude_nonneg (u : UnpackedFloat) : 0 ≤ magnitude u := by
  cases u with
  | finite s m e hm =>
    unfold magnitude
    positivity
  | _ => exact le_rfl

theorem abs_signed (s : Sign) {q : ℚ} (hq : 0 ≤ q) : |signed s q| = q := by
  cases s with
  | positive => exact abs_of_nonneg hq
  | negative => rw [signed, abs_neg, abs_of_nonneg hq]

theorem abs_value (u : UnpackedFloat) : |value u| = magnitude u :=
  abs_signed _ (magnitude_nonneg u)

/-- Zero or a finite float in canonical form, of whatever size. -/
inductive IsNumber : UnpackedFloat → Prop where
  | zero (s : Sign) : IsNumber (.zero s)
  | finite (s : Sign) {m : ℕ} {e : ℤ} (hm : 0 < m) (h : IsCanonical m e) :
      IsNumber (.finite s m e hm)

theorem two_zpow_pos (e : ℤ) : (0 : ℚ) < 2 ^ e := zpow_pos (by norm_num) e

theorem IsCanonical.lt {m : ℕ} {e : ℤ} (h : IsCanonical m e) : (m : ℚ) * 2 ^ e < 2 ^ (e + 53) := by
  have hm : (m : ℚ) < 2 ^ (53 : ℤ) := by exact_mod_cast h.narrow
  rw [add_comm, zpow_add₀ (by norm_num)]
  exact mul_lt_mul_of_pos_right hm (two_zpow_pos e)

theorem IsCanonical.le {m : ℕ} {e : ℤ} (h : IsCanonical m e) (he : e ≠ -1074) :
    (2 : ℚ) ^ (e + 52) ≤ m * 2 ^ e := by
  have hm : (2 : ℚ) ^ (52 : ℤ) ≤ m := by exact_mod_cast h.full.resolve_left he
  rw [add_comm, zpow_add₀ (by norm_num)]
  exact mul_le_mul_of_nonneg_right hm (two_zpow_pos e).le

/-- Of two significands in canonical form, the one with the greater exponent counts for more. -/
theorem IsCanonical.lt_of_exponent {m n : ℕ} {e f : ℤ} (hm : IsCanonical m e)
    (hn : IsCanonical n f) (h : e < f) : (m : ℚ) * 2 ^ e < n * 2 ^ f := by
  have hleast := hm.least
  calc (m : ℚ) * 2 ^ e < 2 ^ (e + 53) := hm.lt
    _ ≤ 2 ^ (f + 52) := zpow_le_zpow_right₀ (by norm_num) (by omega)
    _ ≤ n * 2 ^ f := hn.le (by omega)

theorem compare_canonical {m n : ℕ} {e f : ℤ} (hm : IsCanonical m e) (hn : IsCanonical n f) :
    (compare e f).then (compare m n) = compare ((m : ℚ) * 2 ^ e) (n * 2 ^ f) := by
  rcases lt_trichotomy e f with h | h | h
  · have hlt := hm.lt_of_exponent hn h
    rw [compare_lt_iff_lt.mpr h, compare_lt_iff_lt.mpr hlt]
    rfl
  · subst h
    rw [compare_eq_iff_eq.mpr rfl, Ordering.eq_then]
    rcases lt_trichotomy m n with h | h | h
    · have hlt : (m : ℚ) * 2 ^ e < n * 2 ^ e :=
        mul_lt_mul_of_pos_right (by exact_mod_cast h) (two_zpow_pos e)
      rw [compare_lt_iff_lt.mpr h, compare_lt_iff_lt.mpr hlt]
    · rw [compare_eq_iff_eq.mpr h, compare_eq_iff_eq.mpr (by rw [h])]
    · have hlt : (n : ℚ) * 2 ^ e < m * 2 ^ e :=
        mul_lt_mul_of_pos_right (by exact_mod_cast h) (two_zpow_pos e)
      rw [compare_gt_iff_gt.mpr h, compare_gt_iff_gt.mpr hlt]
  · have hlt := hn.lt_of_exponent hm h
    rw [compare_gt_iff_gt.mpr h, compare_gt_iff_gt.mpr hlt]
    rfl

theorem swap_compare_neg (a b : ℚ) : (compare a b).swap = compare (-a) (-b) := by
  rw [← Std.OrientedCmp.eq_swap]
  rcases lt_trichotomy b a with h | h | h
  · rw [compare_lt_iff_lt.mpr h, compare_lt_iff_lt.mpr (neg_lt_neg h)]
  · rw [compare_eq_iff_eq.mpr h, compare_eq_iff_eq.mpr (by rw [h])]
  · rw [compare_gt_iff_gt.mpr h, compare_gt_iff_gt.mpr (neg_lt_neg h)]

theorem mantissa_mul_pos {m : ℕ} (e : ℤ) (hm : 0 < m) : (0 : ℚ) < m * 2 ^ e :=
  mul_pos (by exact_mod_cast hm) (two_zpow_pos e)

theorem value_zero (s : Sign) : value (.zero s) = 0 := by
  cases s with
  | positive => rfl
  | negative => exact neg_zero

theorem value_positive {m : ℕ} {e : ℤ} (hm : 0 < m) :
    value (.finite .positive m e hm) = m * 2 ^ e := rfl

theorem value_negative {m : ℕ} {e : ℤ} (hm : 0 < m) :
    value (.finite .negative m e hm) = -(m * 2 ^ e) := rfl

/-- Floats are compared as the numbers that they stand for. -/
theorem compare_value {u v : UnpackedFloat} (hu : IsNumber u) (hv : IsNumber v) :
    u.compare v = some (compare (value u) (value v)) := by
  cases hu with
  | zero s =>
    rw [value_zero]
    cases hv with
    | zero t =>
      rw [value_zero, compare_eq_iff_eq.mpr rfl]
      rfl
    | @finite t n f hn hn' =>
      cases t with
      | positive =>
        rw [value_positive, compare_lt_iff_lt.mpr (mantissa_mul_pos f hn)]
        rfl
      | negative =>
        rw [value_negative, compare_gt_iff_gt.mpr (neg_lt_zero.mpr (mantissa_mul_pos f hn))]
        rfl
  | @finite s m e hm hm' =>
    cases hv with
    | zero t =>
      rw [value_zero]
      cases s with
      | positive =>
        rw [value_positive, compare_gt_iff_gt.mpr (mantissa_mul_pos e hm)]
        rfl
      | negative =>
        rw [value_negative, compare_lt_iff_lt.mpr (neg_lt_zero.mpr (mantissa_mul_pos e hm))]
        rfl
    | @finite t n f hn hn' =>
      cases s with
      | positive =>
        cases t with
        | positive =>
          rw [value_positive, value_positive, ← compare_canonical hm' hn']
          rfl
        | negative =>
          have hlt := (neg_lt_zero.mpr (mantissa_mul_pos f hn)).trans (mantissa_mul_pos e hm)
          rw [value_positive, value_negative, compare_gt_iff_gt.mpr hlt]
          rfl
      | negative =>
        cases t with
        | positive =>
          have hlt := (neg_lt_zero.mpr (mantissa_mul_pos e hm)).trans (mantissa_mul_pos f hn)
          rw [value_negative, value_positive, compare_lt_iff_lt.mpr hlt]
          rfl
        | negative =>
          rw [value_negative, value_negative, ← swap_compare_neg, ← compare_canonical hm' hn']
          rfl

/-! ## Floats -/

/-- The number that a finite float stands for. -/
def valueOf (x : Float) : ℚ := value x.toModel.unpack

theorem held_unpack (x : Float) : Held x.toModel.unpack := unpack_held _

theorem isNumber_of_isFinite {x : Float} (h : x.isFinite) : IsNumber x.toModel.unpack := by
  have hheld := held_unpack x
  have hfinite : x.toModel.unpack.isFinite = true := h
  generalize x.toModel.unpack = u at hheld hfinite
  cases hheld with
  | notANumber => cases hfinite
  | infinity s => cases hfinite
  | zero s => exact .zero s
  | finite s hm h he => exact .finite s hm h

/-- The bits of the exponent are not all set in a finite float. -/
theorem exponentBits_ne {x : Float} (hx : x.isFinite) :
    x.toBits.toNat / 2 ^ 52 % 2 ^ 11 ≠ 2047 := by
  intro hones
  have hexponent : @UnpackedFloat.unpackExponent .binary64 x.toBits.toBitVec = -1#11 := by
    apply BitVec.eq_of_toNat_eq
    change (x.toBits.toNat >>> 52) % 2 ^ 11 = 2047
    rw [Nat.shiftRight_eq_div_pow]
    exact hones
  have hfinite : (UnpackedFloat.unpack .binary64 x.toBits.toBitVec).isFinite = true := hx
  simp only [UnpackedFloat.unpack] at hfinite
  rw [if_pos hexponent] at hfinite
  split at hfinite <;> cases hfinite

theorem unpack_ofModel_pack {u : UnpackedFloat} (h : Held u) :
    (Float.ofModel (.pack u)).toModel.unpack = u := unpack_pack h

theorem compare_valueOf {x y : Float} (hx : x.isFinite) (hy : y.isFinite) :
    x.toModel.unpack.compare y.toModel.unpack = some (compare (valueOf x) (valueOf y)) :=
  compare_value (isNumber_of_isFinite hx) (isNumber_of_isFinite hy)

theorem lt_iff_compare (x y : Float) :
    x < y ↔ x.toModel.unpack.compare y.toModel.unpack = some .lt := by
  rw [← beq_iff_eq]
  exact decide_eq_true_iff

theorem le_iff_compare (x y : Float) :
    x ≤ y ↔ (x.toModel.unpack.compare y.toModel.unpack).any (·.isLE) = true :=
  decide_eq_true_iff

theorem lt_iff {x y : Float} (hx : x.isFinite) (hy : y.isFinite) :
    x < y ↔ valueOf x < valueOf y := by
  rw [lt_iff_compare, compare_valueOf hx hy, Option.some.injEq, compare_lt_iff_lt]

theorem le_iff {x y : Float} (hx : x.isFinite) (hy : y.isFinite) :
    x ≤ y ↔ valueOf x ≤ valueOf y := by
  rw [le_iff_compare, compare_valueOf hx hy, Option.any_some, Ordering.isLE_iff_ne_gt]
  exact compare_le_iff_le

theorem beq_iff {x y : Float} (hx : x.isFinite) (hy : y.isFinite) :
    (x == y) = true ↔ valueOf x = valueOf y := by
  have hdef : (x == y) = (x.toModel.unpack.compare y.toModel.unpack == some .eq) := rfl
  rw [hdef, compare_valueOf hx hy, beq_iff_eq, Option.some.injEq, compare_eq_iff_eq]

end BlockStage.Binary64
