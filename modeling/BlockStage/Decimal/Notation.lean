import BlockStage.Decimal.Shortest

/-!
Ways to write a float in decimal: its shortest digits in positional notation, the same digits as a
JSON number, a fixed number of places, and a fixed number of digits with an exponent.
-/

namespace BlockStage.Decimal

def zeros (n : Nat) : String := "".pushn '0' n

/-- `digits * 10 ^ -places`, with `places` digits after the point. -/
def withPlaces (digits places : Nat) : String :=
  if places == 0 then toString digits
  else
    let fraction := toString (digits % tenPow places)
    toString (digits / tenPow places) ++ "." ++ zeros (places - fraction.length) ++ fraction

/-- Positional notation, without a point if the number is whole. -/
def Digits.positional (d : Digits) : String :=
  withPlaces (d.digits * tenPow d.exponent.toNat) (-d.exponent).toNat

/-- The exponent of the first digit. -/
def Digits.leading (d : Digits) : Int := d.exponent + digitCount d.digits - 1

/-- The digits with a point after the first, if there are more. -/
def mantissa (digits : Nat) : String := withPlaces digits (digitCount digits - 1)

def signed (negative : Bool) (s : String) : String := if negative then "-" ++ s else s

/-- A number as texts show it: shortest digits, never an exponent, of two equally near decimals
the greater. -/
def plain (x : Float) : String :=
  match Scaled.ofFloat? x with
  | some s => signed s.negative (shortest .up s.significand s.exponent).positional
  | none => if x.isNaN then "NaN" else signed (x < 0) "inf"

/-- A number as JSON shows it: whole numbers keep one place, and an exponent is written from
`10 ^ 16` on and below `10 ^ -5`. `none` for a float that is no number. -/
def jsonNumber? (x : Float) : Option String :=
  (Scaled.ofFloat? x).map fun s =>
    let d := shortest .even s.significand s.exponent
    let e := d.leading
    signed s.negative <|
      if e < -5 then mantissa d.digits ++ "e-" ++ toString (-e).toNat
      else if 15 < e then mantissa d.digits ++ "e+" ++ toString e.toNat
      else if 0 ≤ d.exponent then d.positional ++ ".0"
      else d.positional

/-- A number rounded to `places` digits after the point; a half goes to the even digit. -/
def fixed (places : Nat) (x : Float) : String :=
  match Scaled.ofFloat? x with
  | some s =>
    let (n, d) := ratio s.significand s.exponent (-places)
    signed s.negative (withPlaces (roundHalfEven n d) places)
  | none => plain x

/-- A number rounded to `places` digits after its first one, with an exponent; a half goes to the
even digit. -/
def scientific (places : Nat) (x : Float) : String :=
  match Scaled.ofFloat? x with
  | some s =>
    if s.significand == 0 then signed s.negative (withPlaces 0 places) ++ "e+0"
    else
      let top := leadingExponent s.significand s.exponent
      let (n, d) := ratio s.significand s.exponent (top - places)
      let rounded := roundHalfEven n d
      let (digits, e) :=
        if rounded == tenPow (places + 1) then (tenPow places, top + 1) else (rounded, top)
      signed s.negative (withPlaces digits places) ++
        (if e < 0 then "e-" ++ toString (-e).toNat else "e+" ++ toString e.toNat)
  | none => plain x

end BlockStage.Decimal
