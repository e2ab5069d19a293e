/-!
Finite floats as a sign, a whole significand and a power of two, and exact decimal arithmetic on
them: where the first decimal digit stands, and the multiples of a power of ten around a value.
-/

namespace BlockStage.Decimal

def twoPow (n : Nat) : Nat := Nat.pow 2 n

def tenPow (n : Nat) : Nat := Nat.pow 10 n

/-- The number `± significand * 2 ^ exponent`. -/
structure Scaled where
  negative : Bool
  significand : Nat
  exponent : Int
  deriving DecidableEq, Repr

/-- What a finite float stands for; `none` for a float that is no number. -/
def Scaled.ofFloat? (x : Float) : Option Scaled :=
  let bits := x.toBits.toNat
  let negative := bits / twoPow 63 == 1
  let fraction := bits % twoPow 52
  match bits / twoPow 52 % twoPow 11 with
  | 0 => some ⟨negative, fraction, -1074⟩
  | 2047 => none
  | e => some ⟨negative, twoPow 52 + fraction, (e : Int) - 1075⟩

/-- Numerator and denominator of `m * 2 ^ q / 10 ^ p`. -/
def ratio (m : Nat) (q p : Int) : Nat × Nat :=
  (m * twoPow q.toNat * tenPow (-p).toNat, twoPow (-q).toNat * tenPow p.toNat)

def digitCount (n : Nat) : Nat := (Nat.toDigits 10 n).length

/-- The exponent of the first decimal digit of `m * 2 ^ q`, for positive `m`. -/
def leadingExponent (m : Nat) (q : Int) : Int :=
  let (n, d) := ratio m q 0
  if d ≤ n then (digitCount (n / d) : Int) - 1 else -(digitCount ((d - 1) / n) : Int)

/-- The whole number nearest to `n / d`; of two, the even one. -/
def roundHalfEven (n d : Nat) : Nat :=
  let (whole, rest) := (n / d, n % d)
  if 2 * rest < d || (2 * rest == d && whole % 2 == 0) then whole else whole + 1

end BlockStage.Decimal
