import BlockStage.Decimal.Reading
import BlockStage.Json.Decode
import BlockStage.Text.Blank
import BlockStage.Vec

/-!
Values that flow between blocks. Projects hold the first four kinds; arrays, vectors and branches
arise while scripts run. Every value can be read as text, number, truth value and JSON.
-/

namespace BlockStage

/-- A branch that a call supplies: the input it is plugged into and the block that has the input.
Without an entry there is nothing to run. -/
structure Branch where
  entry : Option String
  caller : Option String
  deriving DecidableEq, Repr

inductive Value where
  | integer (n : Int64)
  | number (x : Float)
  | text (s : String)
  | bool (b : Bool)
  | array (items : List Value)
  | vector (v : Vec Float)
  | branch (b : Branch)

namespace Value

instance : Inhabited Value := ⟨integer 0⟩

/-- The value of a parameter or argument that is not there. -/
def zero : Value := integer 0

mutual

def toJson : Value → Json
  | integer n => .integer n.toInt
  | number x => .number x
  | text s => .text s
  | bool b => .bool b
  | array items => .list (itemsToJson items)
  | vector v => .object [("x", .number v.x), ("y", .number v.y)]
  | branch b =>
    .object [
      ("callerId", (b.caller.map .text).getD .null),
      ("entry", (b.entry.map .text).getD .null)]

def itemsToJson : List Value → List Json
  | [] => []
  | item :: items => toJson item :: itemsToJson items

end

/-- A number in its plain notation. -/
def numberText (x : Float) : String :=
  if x.isInf then (if 0 < x then "Infinity" else "-Infinity") else Decimal.plain x

/-- The text a block shows for a value. An array shows its JSON. -/
def display : Value → String
  | integer n => toString n.toInt
  | number x => numberText x
  | text s => s
  | bool b => toString b
  | array items => (Json.list (itemsToJson items)).compact
  | vector v => numberText v.x ++ ", " ++ numberText v.y
  | branch _ => "[object Object]"

/-- A value as a number: whatever is none counts as zero. -/
def toNumber : Value → Float
  | integer n => .ofInt n.toInt
  | number x => if x.isNaN then 0 else x
  | text s =>
    match Decimal.read? (Text.trim s.toList) with
    | some x => if x.isNaN then 0 else x
    | none => 0
  | bool b => if b then 1 else 0
  | array _ | vector _ | branch _ => 0

/-- A value as a truth value. Of texts, only the empty one, `0` and `false` in any case count as
false. -/
def toBool : Value → Bool
  | bool b => b
  | integer n => n != 0
  | number x => x != 0 && !x.isNaN
  | text s => !(s == "" || s == "0" || s.toList.map Char.toLower == "false".toList)
  | array _ | vector _ | branch _ => true

def branch? : Value → Option Branch
  | branch b => some b
  | _ => none

def vector? : Value → Option (Vec Float)
  | vector v => some v
  | _ => none

/-- The value that a plain JSON value stands for. Whole numbers beyond 64 bits become floats. -/
def ofNode? : Json.Node → Option Value
  | .number (.ok (.integer n)) =>
    if (Int64.ofInt n).toInt = n then some (integer (.ofInt n)) else some (number (.ofInt n))
  | .number (.ok (.float x)) => some (number x)
  | .text (.ok s) => some (text s)
  | .bool b => some (bool b)
  | _ => none

def decode : Json.Decoder Value := fun depth node => do
  node.check depth
  match ofNode? node with
  | some value => return value
  | none => throw (.noVariant "Value")

end Value

end BlockStage
