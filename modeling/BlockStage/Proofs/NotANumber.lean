import BlockStage.Proofs.FiniteNumbers

/-!
Floats that are no numbers. They compare with nothing, so a float need not be on either side of
zero. A difference with one of them is no number either, and a finite float less any number is one.
-/

namespace BlockStage.Binary64

open Float.Model (UnpackedFloat)
open Float.Model.UnpackedFloat (Sign)

/-! ## Comparison -/

theorem isNaN_iff (x : Float) : x.isNaN = true ↔ x.toModel.unpack = .notANumber := by
  change x.toModel.unpack.isNaN = true ↔ _
  cases x.toModel.unpack <;> simp [UnpackedFloat.isNaN]

theorem compare_notANumber_left (u : UnpackedFloat) :
    UnpackedFloat.notANumber.compare u = none := by
  cases u <;> rfl

theorem compare_notANumber_right (u : UnpackedFloat) :
    u.compare UnpackedFloat.notANumber = none := by
  cases u <;> rfl

/-- What is no number is neither less than a float nor greater. -/
theorem not_lt_of_isNaN {x y : Float} (h : x.isNaN = true ∨ y.isNaN = true) : ¬ x < y := by
  rw [lt_iff_compare]
  rcases h with h | h
  · simp [(isNaN_iff x).mp h, compare_notANumber_left]
  · simp [(isNaN_iff y).mp h, compare_notANumber_right]

theorem not_le_of_isNaN {x : Float} (h : x.isNaN = true) (y : Float) : ¬ x ≤ y := by
  rw [le_iff_compare]
  simp [(isNaN_iff x).mp h, compare_notANumber_left]

theorem unpack_zero : (0 : Float).toModel.unpack = .zero .positive := by rfl

/-- A float has a sign unless it is no number. -/
theorem le_zero_or_zero_lt {x : Float} (h : x.isNaN = false) : x ≤ 0 ∨ 0 < x := by
  rw [le_iff_compare, lt_iff_compare, unpack_zero]
  change x.toModel.unpack.isNaN = false at h
  cases hx : x.toModel.unpack with
  | notANumber =>
    rw [hx] at h
    cases h
  | infinity s | zero s => cases s <;> decide
  | finite s m e hm =>
    cases s with
    | positive => exact .inr rfl
    | negative => exact .inl rfl

/-! ## Differences -/

theorem unpack_sub (x y : Float) :
    (x - y).toModel.unpack = UnpackedFloat.unpack .binary64 (UnpackedFloat.pack .binary64
      (UnpackedFloat.sub .binary64 x.toModel.unpack y.toModel.unpack)) := rfl

theorem sub_notANumber_left (u : UnpackedFloat) :
    UnpackedFloat.sub .binary64 .notANumber u = .notANumber := by
  cases u <;> rfl

theorem sub_notANumber_right (u : UnpackedFloat) :
    UnpackedFloat.sub .binary64 u .notANumber = .notANumber := by
  cases u <;> rfl

theorem isNaN_sub {x y : Float} (h : x.isNaN = true ∨ y.isNaN = true) : (x - y).isNaN = true := by
  rw [isNaN_iff, unpack_sub]
  rcases h with h | h
  · rw [(isNaN_iff x).mp h, sub_notANumber_left]
    exact unpack_pack .notANumber
  · rw [(isNaN_iff y).mp h, sub_notANumber_right]
    exact unpack_pack .notANumber

theorem held_abs {u : UnpackedFloat} (hu : Held u) : Held u.abs := by
  cases hu with
  | notANumber => exact .notANumber
  | infinity s => exact .infinity .positive
  | zero s => exact .zero .positive
  | finite s hm h he => exact .finite .positive hm h he

theorem unpack_abs (x : Float) : x.abs.toModel.unpack = x.toModel.unpack.abs :=
  unpack_ofModel_pack (held_abs (held_unpack x))

theorem isNaN_abs (x : Float) : x.abs.isNaN = x.isNaN := by
  change x.abs.toModel.unpack.isNaN = x.toModel.unpack.isNaN
  rw [unpack_abs]
  cases x.toModel.unpack <;> rfl

theorem sub_infinity {u : UnpackedFloat} (hu : IsNumber u) (s : Sign) :
    UnpackedFloat.sub .binary64 u (.infinity s) = .infinity (-s) := by
  cases hu <;> rfl

/-- Taking an infinity off a finite float gives an infinity. -/
theorem isNaN_sub_of_isFinite {x y : Float} (hx : x.isFinite = true) (hy : y.isNaN = false) :
    (x - y).isNaN = false := by
  cases hinf : y.isInf with
  | false => exact (sub_nearest hx (isFinite_of_not hy hinf)).isNaN
  | true =>
    change y.toModel.unpack.isInf = true at hinf
    change (x - y).toModel.unpack.isNaN = false
    rw [unpack_sub]
    cases hu : y.toModel.unpack with
    | infinity s =>
      rw [sub_infinity (isNumber_of_isFinite hx), unpack_pack (.infinity _)]
      rfl
    | _ =>
      rw [hu] at hinf
      cases hinf

end BlockStage.Binary64
