/-!
Reading a number from its decimal text: an optional sign, then digits with an optional point and an
optional exponent, or one of the words for infinity. The float nearest to the decimal is taken.
-/

namespace BlockStage.Decimal

def digitValue (c : Char) : Nat := c.toNat - '0'.toNat

/-- The number that a list of digits stands for. -/
def ofDigits (cs : List Char) : Nat := cs.foldl (fun n c => 10 * n + digitValue c) 0

/-- The float nearest to `n * 10 ^ e`. Decimals beyond every float are not worked out. -/
def nearest (n : Nat) (e : Int) : Float :=
  let size := e + (Nat.toDigits 10 n).length
  if n == 0 || size < -400 then 0
  else if 400 < size then 1 / 0
  else if e < 0 then Float.ofScientific n true (-e).toNat
  else Float.ofScientific n false e.toNat

/-- A sign before a number, if any, and what follows. -/
def readSign : List Char → Bool × List Char
  | '-' :: cs => (true, cs)
  | '+' :: cs => (false, cs)
  | cs => (false, cs)

/-- An exponent grows no further once it has passed `2 ^ 16`. -/
def exponentOfDigits (cs : List Char) : Nat :=
  cs.foldl (fun e c => if e < 0x10000 then 10 * e + digitValue c else e) 0

/-- The exponent after the digits of a number, if it is well written and ends the text. -/
def readExponent? : List Char → Option Int
  | [] => some 0
  | c :: cs =>
    if c == 'e' || c == 'E' then
      let (negative, digits) := readSign cs
      if digits.isEmpty || !digits.all Char.isDigit then none
      else
        let e : Int := exponentOfDigits digits
        some (if negative then -e else e)
    else none

/-- The digits after a point, and what follows them. -/
def readFraction : List Char → List Char × List Char
  | '.' :: cs => cs.span Char.isDigit
  | cs => ([], cs)

/-- A number without a sign. -/
def readUnsigned? (cs : List Char) : Option Float :=
  let (whole, rest) := cs.span Char.isDigit
  let (fraction, rest) := readFraction rest
  if whole.isEmpty && fraction.isEmpty then
    let word := String.ofList (cs.map Char.toLower)
    if word == "inf" || word == "infinity" then some (1 / 0)
    else if word == "nan" then some (0 / 0)
    else none
  else do
    let e ← readExponent? rest
    some (nearest (ofDigits (whole ++ fraction)) (e - fraction.length))

/-- The float that the whole of `cs` stands for. -/
def read? (cs : List Char) : Option Float :=
  let (negative, rest) := readSign cs
  (readUnsigned? rest).map fun x => if negative then -x else x

end BlockStage.Decimal
