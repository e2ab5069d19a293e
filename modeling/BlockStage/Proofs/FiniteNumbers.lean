import BlockStage.Proofs.FloatArithmetic
import BlockStage.Proofs.JsonScalars

/-!
Every number of a text is finite. A whole number fits 64 bits; a float is scaled by powers of ten
that floats can hold, and one that leaves the finite floats on the way is a fault of the text. What
holds of the numbers holds of all trees that the reader builds from them.
-/

namespace BlockStage

namespace Binary64

theorem isFinite_of_not {x : Float} (hnan : x.isNaN = false) (hinf : x.isInf = false) :
    x.isFinite := by
  change x.toModel.unpack.isNaN = false at hnan
  change x.toModel.unpack.isInf = false at hinf
  change x.toModel.unpack.isFinite = true
  cases h : x.toModel.unpack with
  | notANumber =>
    rw [h] at hnan
    cases hnan
  | infinity s =>
    rw [h] at hinf
    cases hinf
  | zero s => rfl
  | finite s m e hm => rfl

theorem tenPow_lt_overflow : (10 : ℚ) ^ 308 < Rounded.overflow := by
  have hnat : 10 ^ 308 + 2 ^ 970 < 2 ^ 1024 := by decide +kernel
  have hcast : (10 : ℚ) ^ 308 + 2 ^ 970 < 2 ^ 1024 := by exact_mod_cast hnat
  unfold Rounded.overflow
  rw [zpow_ofNat, zpow_ofNat]
  exact lt_sub_iff_add_lt.mpr hcast

/-- Powers of ten up to `10 ^ 308` are held by finite floats. -/
theorem isFinite_tenPow {k : ℕ} (hk : k ≤ 308) :
    (Float.ofScientific 1 false k).isFinite ∧ 1 ≤ valueOf (Float.ofScientific 1 false k) := by
  have hnearest := (ofScientific_nearest 1 (hk.trans (by norm_num : 308 ≤ 2048))).1
  rw [Nat.cast_one, one_mul] at hnearest
  have hlow : (1 : ℚ) ≤ 10 ^ k := one_le_pow₀ (by norm_num)
  have hhigh : |(10 : ℚ) ^ k| < Rounded.overflow := by
    rw [abs_of_nonneg (by positivity)]
    calc (10 : ℚ) ^ k ≤ 10 ^ 308 := pow_le_pow_right₀ (by norm_num) hk
      _ < Rounded.overflow := tenPow_lt_overflow
  have hone : ((1 : ℕ) : ℚ) ≤ 10 ^ k := by rwa [Nat.cast_one]
  have hvalue := hnearest.natCast_le hhigh (by norm_num) hone
  rw [Nat.cast_one] at hvalue
  exact ⟨hnearest.isFinite hhigh, hvalue⟩

theorem isFinite_div_of_one_le {x y : Float} (hx : x.isFinite) (hy : y.isFinite)
    (hone : 1 ≤ valueOf y) : (x / y).isFinite := by
  have hpos : 0 < valueOf y := one_pos.trans_le hone
  apply (div_nearest hx hy hpos.ne').isFinite
  have hquotient : |valueOf x / valueOf y| ≤ |valueOf x| := by
    rw [abs_div, abs_of_pos hpos]
    exact div_le_self (abs_nonneg _) hone
  exact hquotient.trans_lt ((lt_add_of_pos_right _ (two_zpow_pos 970)).trans_le
    (abs_valueOf_add_le hx))

theorem isFinite_ofNat {n : ℕ} (hn : n < 2 ^ 64) : (Float.ofNat n).isFinite := by
  apply (ofNat_nearest n).isFinite
  rw [Nat.abs_cast]
  calc (n : ℚ) < 2 ^ 64 := by exact_mod_cast hn
    _ ≤ 10 ^ 20 := by norm_num
    _ ≤ 10 ^ 308 := pow_le_pow_right₀ (by norm_num) (by norm_num)
    _ < Rounded.overflow := tenPow_lt_overflow

end Binary64

namespace Json

open Binary64

/-! ## Floats from digits and a power of ten -/

theorem scale_isFinite (fuel : Nat) {x y : Float} {e : Int} (hx : x.isFinite)
    (h : scale fuel x e = .ok y) : y.isFinite := by
  induction fuel generalizing x e with
  | zero =>
    obtain rfl : x = y := by simpa [scale] using h
    exact hx
  | succ fuel ih =>
    have hkept (hxy : (.ok x : Except Fault Float) = .ok y) : y.isFinite := by
      cases hxy
      exact hx
    unfold scale at h
    by_cases hlarge : 308 < e
    · rw [if_pos hlarge] at h
      split at h
      · exact hkept h
      · cases h
    rw [if_neg hlarge] at h
    by_cases hmul : 0 ≤ e
    · rw [if_pos hmul] at h
      obtain ⟨hpow, -⟩ := isFinite_tenPow (k := e.toNat) (by omega)
      dsimp only at h
      split at h
      · cases h
      · next hinf =>
        cases h
        exact isFinite_of_not (mul_nearest hx hpow).isNaN (Bool.eq_false_of_not_eq_true hinf)
    rw [if_neg hmul] at h
    by_cases hdiv : -308 ≤ e
    · rw [if_pos hdiv] at h
      obtain ⟨hpow, hone⟩ := isFinite_tenPow (k := (-e).toNat) (by omega)
      cases h
      exact isFinite_div_of_one_le hx hpow hone
    rw [if_neg hdiv] at h
    split at h
    · exact hkept h
    · obtain ⟨hpow, hone⟩ := isFinite_tenPow (k := 308) le_rfl
      exact ih (isFinite_div_of_one_le hx hpow hone) h

/-! ## Numbers -/

/-- A whole number that fits 64 bits, or a finite float. -/
def Number.IsFinite : Number → Prop
  | .integer n => Fits n
  | .float x => x.isFinite

theorem digits_foldl_le {step : Significand → Char → Significand}
    (hstep : ∀ s c, s.digits ≤ maxSignificand → (step s c).digits ≤ maxSignificand)
    (cs : List Char) {s : Significand} (hs : s.digits ≤ maxSignificand) :
    (cs.foldl step s).digits ≤ maxSignificand := by
  induction cs generalizing s with
  | nil => exact hs
  | cons c cs ih => exact ih (hstep s c hs)

namespace Significand

theorem ofWhole_digits_le (cs : List Char) : (ofWhole cs).digits ≤ maxSignificand := by
  refine digits_foldl_le ?_ cs (Nat.zero_le _)
  intro s c hs
  dsimp only
  split
  · next hfits =>
    rw [Bool.and_eq_true, decide_eq_true_eq] at hfits
    exact hfits.2
  · exact hs

theorem addFraction_digits_le (cs : List Char) {s : Significand} (hs : s.digits ≤ maxSignificand) :
    (s.addFraction cs).digits ≤ maxSignificand := by
  induction cs generalizing s with
  | nil => exact hs
  | cons c cs ih =>
    rw [addFraction]
    split
    · next hfits => exact ih hfits
    · exact hs

theorem value_isFinite {s : Significand} (hs : s.digits ≤ maxSignificand) {negative : Bool}
    {e : Int} {n : Number} (h : s.value negative e = .ok n) : n.IsFinite := by
  have hdigits : (Float.ofNat s.digits).isFinite :=
    isFinite_ofNat (hs.trans_lt (by decide))
  have hzero : (0 : Float).isFinite := isFinite_ofNat (n := 0) (by norm_num)
  unfold value at h
  generalize hmagnitude : (if Decimal.twoPow 31 ≤ e.natAbs then _ else _) = magnitude at h
  cases magnitude with
  | error fault => cases h
  | ok x =>
    have hx : x.isFinite := by
      split at hmagnitude
      · split at hmagnitude
        · cases hmagnitude
        · cases hmagnitude
          exact hzero
      · exact scale_isFinite 8 hdigits hmagnitude
    cases h
    cases negative with
    | false => exact hx
    | true => exact (isFinite_neg x).trans hx

end Significand

theorem wholeValue_isFinite {negative : Bool} {digits : List Char} {n : Number}
    (h : wholeValue negative digits = .ok n) : n.IsFinite := by
  have hmax : (maxSignificand : Int) = 18446744073709551615 := rfl
  have hmin : (Decimal.twoPow 63 : Int) = 9223372036854775808 := rfl
  unfold wholeValue at h
  dsimp only at h
  split at h
  · next hfits =>
    cases h
    simp only [Bool.and_eq_true, decide_eq_true_eq] at hfits
    have hle := hfits.2
    change Fits _
    unfold Fits
    omega
  · split at h
    · next hfits =>
      cases h
      simp only [Bool.and_eq_true, decide_eq_true_eq] at hfits
      have hle := hfits.2
      change Fits _
      unfold Fits
      omega
    · exact Significand.value_isFinite (Significand.ofWhole_digits_le digits) h

/-! ## Trees -/

/-- The second node is the first one or stands somewhere in it. -/
inductive Node.Within (part : Node) : Node → Prop where
  | self : Within part part
  | item {node : Node} {items : List Node} {break? : Option Break} (hmem : node ∈ items)
      (h : Within part node) : Within part (.list items break?)
  | member {key : Except Fault String} {node : Node}
      {members : List (Except Fault String × Node)} {break? : Option Break}
      (hmem : (key, node) ∈ members) (h : Within part node) : Within part (.object members break?)

/-- All numbers that stand in a tree are finite. -/
def Node.HasFiniteNumbers (node : Node) : Prop :=
  ∀ n, Within (.number (.ok n)) node → n.IsFinite

namespace Node

theorem Within.trans {a b c : Node} (h : Within a b) (h' : Within b c) : Within a c := by
  induction h' with
  | self => exact h
  | item hmem _ ih => exact .item hmem ih
  | member hmem _ ih => exact .member hmem ih

theorem Within.hasFiniteNumbers {part node : Node} (h : part.Within node)
    (hnode : node.HasFiniteNumbers) : part.HasFiniteNumbers :=
  fun n hn => hnode n (hn.trans h)

theorem finite_null : null.HasFiniteNumbers := by
  intro n h
  cases h

theorem finite_bool (b : Bool) : (bool b).HasFiniteNumbers := by
  intro n h
  cases h

theorem finite_text (s : Except Fault String) : (text s).HasFiniteNumbers := by
  intro n h
  cases h

theorem finite_broken (b : Break) : (broken b).HasFiniteNumbers := by
  intro n h
  cases h

theorem finite_number {r : Except Fault Number} (hr : ∀ n, r = .ok n → n.IsFinite) :
    (number r).HasFiniteNumbers := by
  intro n h
  cases h with
  | self => exact hr n rfl

theorem finite_list {items : List Node} (h : ∀ item ∈ items, item.HasFiniteNumbers)
    (break? : Option Break) : (list items break?).HasFiniteNumbers := by
  intro n hn
  cases hn with
  | item hmem hn => exact h _ hmem n hn

theorem finite_object {members : List (Except Fault String × Node)}
    (h : ∀ member ∈ members, member.2.HasFiniteNumbers) (break? : Option Break) :
    (object members break?).HasFiniteNumbers := by
  intro n hn
  cases hn with
  | member hmem hn => exact h _ hmem n hn

end Node

open Node

/-! ## Reading -/

theorem readWord_finite {value : Node} (hvalue : value.HasFiniteNumbers) (ws cs : List Char) :
    (readWord value ws cs).1.HasFiniteNumbers := by
  induction ws generalizing cs with
  | nil => exact hvalue
  | cons w ws ih =>
    cases cs with
    | nil => exact finite_broken _
    | cons c cs =>
      rw [readWord]
      split
      · exact ih cs
      · exact finite_broken _

theorem brokenNumber_finite (cs : List Char) : (brokenNumber cs).HasFiniteNumbers := by
  cases cs with
  | nil => exact finite_broken _
  | cons c cs => exact finite_broken _

theorem readExponent_error {cs : List Char} {node : Node} (h : readExponent cs = .error node) :
    node.HasFiniteNumbers := by
  simp only [readExponent] at h
  split at h
  · cases h
    exact brokenNumber_finite _
  · cases h

theorem finishFloat_finite {s : Significand} (hs : s.digits ≤ maxSignificand) (negative : Bool)
    (cs : List Char) : (finishFloat negative s cs).1.HasFiniteNumbers := by
  have hvalue (e : Int) : (Node.number (s.value negative e)).HasFiniteNumbers :=
    finite_number fun n h => Significand.value_isFinite hs h
  cases cs with
  | nil => exact hvalue 0
  | cons c rest =>
    rw [finishFloat]
    split
    · split
      · exact hvalue _
      · next hexponent => exact readExponent_error hexponent
    · exact hvalue 0

theorem readUnsigned_finite (negative : Bool) (cs : List Char) :
    (readUnsigned negative cs).1.HasFiniteNumbers := by
  unfold readUnsigned
  generalize cs.span Char.isDigit = spanned
  obtain ⟨whole, rest⟩ := spanned
  have hwhole : (Significand.ofWhole whole).digits ≤ maxSignificand :=
    Significand.ofWhole_digits_le whole
  dsimp only
  split
  · exact brokenNumber_finite rest
  · exact finite_broken _
  · split
    · exact brokenNumber_finite _
    · exact finishFloat_finite (Significand.addFraction_digits_le _ hwhole) negative _
  · split
    · exact finishFloat_finite hwhole negative _
    · exact finite_number fun n h => wholeValue_isFinite h

/-- What `fuel` is enough to read has finite numbers. -/
structure ReadsFinite (fuel : Nat) : Prop where
  node : ∀ cs, (readNode fuel cs).1.HasFiniteNumbers
  items : ∀ cs, ∀ item ∈ (readItems fuel cs).1, item.HasFiniteNumbers
  members : ∀ cs, ∀ member ∈ (readMembers fuel cs).1, member.2.HasFiniteNumbers

namespace ReadsFinite

variable {fuel : Nat} (h : ReadsFinite fuel)
include h

theorem node_succ (cs : List Char) : (readNode (fuel + 1) cs).1.HasFiniteNumbers := by
  rw [readNode]
  split
  · exact finite_broken _
  · exact readWord_finite finite_null _ _
  · exact readWord_finite (finite_bool true) _ _
  · exact readWord_finite (finite_bool false) _ _
  · split
    · exact finite_text _
    · exact finite_broken _
  · exact readUnsigned_finite true _
  · split
    · exact finite_list (by simp) none
    · exact finite_list (by simp) _
    · exact finite_list (h.items _) _
  · split
    · exact finite_object (by simp) none
    · exact finite_object (by simp) _
    · exact finite_object (h.members _) _
  · split
    · exact readUnsigned_finite false _
    · exact finite_broken _

theorem items_succ (cs : List Char) :
    ∀ item ∈ (readItems (fuel + 1) cs).1, item.HasFiniteNumbers := by
  intro item hitem
  rw [readItems] at hitem
  dsimp only at hitem
  split at hitem
  · obtain rfl := List.mem_singleton.mp hitem
    exact h.node cs
  · obtain rfl := List.mem_singleton.mp hitem
    exact h.node cs
  · rcases List.mem_cons.mp hitem with rfl | hitem
    · exact h.node cs
    · exact h.items _ item hitem

theorem members_succ (cs : List Char) :
    ∀ member ∈ (readMembers (fuel + 1) cs).1, member.2.HasFiniteNumbers := by
  intro member hmember
  unfold readMembers at hmember
  split at hmember
  · exact absurd hmember List.not_mem_nil
  · next hfuel =>
    obtain rfl := Nat.succ.inj hfuel
    split at hmember
    · exact absurd hmember List.not_mem_nil
    · split at hmember
      · obtain rfl := List.mem_singleton.mp hmember
        exact finite_broken _
      · dsimp only at hmember
        split at hmember
        · obtain rfl := List.mem_singleton.mp hmember
          exact h.node _
        · obtain rfl := List.mem_singleton.mp hmember
          exact h.node _
        · rcases List.mem_cons.mp hmember with rfl | hmember
          · exact h.node _
          · exact h.members _ member hmember
      · obtain rfl := List.mem_singleton.mp hmember
        exact finite_broken _
  · exact absurd hmember List.not_mem_nil

end ReadsFinite

theorem readsFinite (fuel : Nat) : ReadsFinite fuel := by
  induction fuel with
  | zero =>
    refine ⟨fun cs => ?_, fun cs item hitem => ?_, fun cs member hmember => ?_⟩
    · exact finite_broken _
    · rw [readItems] at hitem
      exact absurd hitem List.not_mem_nil
    · rw [readMembers] at hmember
      exact absurd hmember List.not_mem_nil
  | succ fuel ih => exact ⟨ih.node_succ, ih.items_succ, ih.members_succ⟩

/-- Every number that stands in a text is finite. -/
theorem ofText_finite (text : String) : (Source.ofText text).root.HasFiniteNumbers :=
  (readsFinite (2 * text.toList.length + 1)).node text.toList

end Json

end BlockStage
