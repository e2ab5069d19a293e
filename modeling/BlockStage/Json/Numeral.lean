import BlockStage.Decimal.Reading
import BlockStage.Decimal.Scaled
import BlockStage.Json.Node

/-!
Reading a JSON number. A number with a point or an exponent, or too large for 64 bits, is worked out
as a float from its leading digits and a power of ten, which may miss the nearest float by a little.
-/

namespace BlockStage.Json

/-- Digits of a number read so far: a significand below `2 ^ 64` and the power of ten it is
multiplied by. -/
structure Significand where
  digits : Nat
  exponent : Int

def maxSignificand : Nat := Decimal.twoPow 64 - 1

/-- Adds the digits of the whole part. The first one that does not fit, and all after it, only
raise the exponent. -/
def Significand.ofWhole (cs : List Char) : Significand :=
  cs.foldl (fun s c =>
    let next := 10 * s.digits + Decimal.digitValue c
    if s.exponent == 0 && next ≤ maxSignificand then ⟨next, 0⟩ else ⟨s.digits, s.exponent + 1⟩)
    ⟨0, 0⟩

/-- Adds the digits after the point, up to the first one that does not fit. -/
def Significand.addFraction (s : Significand) : List Char → Significand
  | [] => s
  | c :: cs =>
    let next := 10 * s.digits + Decimal.digitValue c
    if next ≤ maxSignificand then addFraction ⟨next, s.exponent - 1⟩ cs else s

/-- `x * 10 ^ e`, in steps that floats can hold: at most `10 ^ 308` at once. `fuel` bounds the
steps, of which four bring any significand to zero. -/
def scale : Nat → Float → Int → Except Fault Float
  | 0, x, _ => .ok x
  | fuel + 1, x, e =>
    if 308 < e then if x == 0 then .ok x else .error .hugeNumber
    else if 0 ≤ e then
      let y := x * Float.ofScientific 1 false e.toNat
      if y.isInf then .error .hugeNumber else .ok y
    else if -308 ≤ e then .ok (x / Float.ofScientific 1 false (-e).toNat)
    else if x == 0 then .ok x
    else scale fuel (x / Float.ofScientific 1 false 308) (e + 308)

/-- The value of a significand with a written exponent. An exponent that does not fit 31 bits is
taken for infinite. -/
def Significand.value (s : Significand) (negative : Bool) (exponent : Int) : Except Fault Number :=
  let magnitude :=
    if Decimal.twoPow 31 ≤ exponent.natAbs then
      if s.digits ≠ 0 ∧ 0 < exponent then .error .hugeNumber else .ok 0
    else scale 8 (Float.ofNat s.digits) (s.exponent + exponent)
  magnitude.map fun x => .float (if negative then -x else x)

/-- The value of a number without point and exponent. Zero with a sign is a float. -/
def wholeValue (negative : Bool) (digits : List Char) : Except Fault Number :=
  let n := Decimal.ofDigits digits
  if !negative && n ≤ maxSignificand then .ok (.integer n)
  else if negative && 0 < n && n ≤ Decimal.twoPow 63 then .ok (.integer (-n))
  else (Significand.ofWhole digits).value negative 0

/-- A number that the text cuts off where a digit is wanted, or that goes on with something else. -/
def brokenNumber : List Char → Node
  | [] => .broken ⟨.endInValue, .badNumber, .badNumber⟩
  | _ => .broken (.always .badNumber)

/-- The exponent after its letter, and what follows it. -/
def readExponent (cs : List Char) : Except Node (Int × List Char) :=
  let (negative, cs) := Decimal.readSign cs
  let (digits, rest) := cs.span Char.isDigit
  if digits.isEmpty then .error (brokenNumber rest)
  else
    let e : Int := Decimal.ofDigits digits
    .ok (if negative then -e else e, rest)

def isExponentLetter (c : Char) : Bool := c == 'e' || c == 'E'

/-- A number whose digits have been read, up to the end of its exponent if it has one. -/
def finishFloat (negative : Bool) (s : Significand) (cs : List Char) : Node × List Char :=
  match cs with
  | [] => (.number (s.value negative 0), [])
  | c :: rest =>
    if isExponentLetter c then
      match readExponent rest with
      | .ok (e, rest) => (.number (s.value negative e), rest)
      | .error node => (node, [])
    else (.number (s.value negative 0), cs)

/-- A number after its sign. Only a lone zero may start with a zero. -/
def readUnsigned (negative : Bool) (cs : List Char) : Node × List Char :=
  let (whole, rest) := cs.span Char.isDigit
  match whole, rest with
  | [], _ => (brokenNumber rest, [])
  | '0' :: _ :: _, _ => (.broken (.always .badNumber), [])
  | _, '.' :: rest =>
    let (fraction, rest) := rest.span Char.isDigit
    if fraction.isEmpty then (brokenNumber rest, [])
    else finishFloat negative ((Significand.ofWhole whole).addFraction fraction) rest
  | _, rest =>
    if rest.head?.any isExponentLetter then finishFloat negative (.ofWhole whole) rest
    else (.number (wholeValue negative whole), rest)

end BlockStage.Json
