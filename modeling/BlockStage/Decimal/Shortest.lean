import BlockStage.Decimal.Scaled

/-!
The fewest decimal digits that read back as a given float. A decimal reads back if it lies in the
interval of reals that round to the float; the ends belong to it when the significand is even.
-/

namespace BlockStage.Decimal

/-- The number `digits * 10 ^ exponent`. -/
structure Digits where
  digits : Nat
  exponent : Int
  deriving DecidableEq, Repr

/-- Which of two equally near decimals stands for a float. -/
inductive Tie where
  | up
  | even
  deriving DecidableEq, Repr

/-- The multiple of `10 ^ p` that stands for `m * 2 ^ q`, if one of the two around it reads back.
`down` is the distance to the lower end of the interval in quarters of `2 ^ q`; the upper end is
two quarters away. -/
def nearestOnGrid (tie : Tie) (m : Nat) (q : Int) (down : Nat) (p : Int) : Option Nat :=
  let (unit, d) := ratio 1 (q - 2) p
  let low := (4 * m - down) * unit
  let value := 4 * m * unit
  let high := (4 * m + 2) * unit
  let below := value / d
  let above := below + 1
  let belowFits := low < below * d || (low == below * d && m % 2 == 0)
  let aboveFits := above * d < high || (above * d == high && m % 2 == 0)
  let toBelow := value - below * d
  let toAbove := above * d - value
  match belowFits, aboveFits with
  | true, true =>
    if toBelow < toAbove then some below
    else if toAbove < toBelow then some above
    else match tie with
      | .up => some above
      | .even => some (if below % 2 == 0 then below else above)
  | true, false => some below
  | false, true => some above
  | false, false => none

/-- Decimal digits without the zeros at their end; `fuel` bounds how many are dropped. -/
def Digits.dropZeros : Nat → Digits → Digits
  | 0, d => d
  | fuel + 1, d =>
    if d.digits != 0 && d.digits % 10 == 0 then dropZeros fuel ⟨d.digits / 10, d.exponent + 1⟩
    else d

/-- The shortest decimal that reads back as `m * 2 ^ q`; seventeen digits always do. -/
def shortest (tie : Tie) (m : Nat) (q : Int) : Digits :=
  if m == 0 then ⟨0, 0⟩
  else
    let down := if m == twoPow 52 && -1074 < q then 1 else 2
    let top := leadingExponent m q
    let found := (List.range 17).findSome? fun (k : Nat) =>
      let p := top - k
      (nearestOnGrid tie m q down p).map fun n => (⟨n, p⟩ : Digits)
    (found.getD ⟨0, 0⟩).dropZeros 17

end BlockStage.Decimal
