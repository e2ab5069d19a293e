import BlockStage.Value

/-!
How arrays and their items look on the stage.
-/

namespace BlockStage.Arrays

/-- How many items the bubble of a reporter shows. -/
def bubbleItems : Nat := 50

/-- The number of digits after the point of a plain number. -/
def placesShown (x : Float) : Nat :=
  match (Decimal.plain x).toList.dropWhile (· != '.') with
  | [] => 0
  | _ :: fraction => fraction.length

/-- A number as an item: from a million on with five digits and an exponent, below that rounded down
to three places, of which zeros at the end are left out. -/
def numberText (x : Float) : String :=
  if !x.isFinite then Value.numberText x
  else if 1000000 ≤ x then Decimal.scientific 4 x
  else
    let floored := (x * 1000).floor / 1000
    Decimal.fixed (min (placesShown floored) 3) floored

/-- An array inside a text. -/
def outline (items : List Value) : String := "Array[" ++ toString items.length ++ "]"

def itemText : Value → String
  | .array items => outline items
  | .integer n => numberText (.ofInt n.toInt)
  | .number x => numberText x
  | .text s => s
  | .bool b => toString b
  | .vector _ | .branch _ => "Object"

/-- The bubble of a reporter: the first items, then the length on a line of its own. -/
def bubble (items : List Value) : String :=
  "[" ++ ", ".intercalate ((items.take bubbleItems).map itemText) ++ "]\nLength: " ++
    toString items.length

end BlockStage.Arrays
