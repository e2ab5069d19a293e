import BlockStage.Json.Basic

/-!
What can be wrong with a JSON text, first as text and then as data, and how messages word it.
-/

namespace BlockStage.Json

/-- Faults of a text that is no JSON, or nested too deeply. -/
inductive Fault where
  | endInValue
  | endInList
  | endInObject
  | endInText
  | noValue
  | misspelt
  | noColon
  | noListComma
  | noObjectComma
  | danglingComma
  | leftover
  | keyNotText
  | badNumber
  | hugeNumber
  | badEscape
  | cutSurrogate
  | loneSurrogate
  | controlCharacter
  | tooDeep
  deriving DecidableEq, Repr

def Fault.message : Fault → String
  | endInValue => "EOF while parsing a value"
  | endInList => "EOF while parsing a list"
  | endInObject => "EOF while parsing an object"
  | endInText => "EOF while parsing a string"
  | noValue => "expected value"
  | misspelt => "expected ident"
  | noColon => "expected `:`"
  | noListComma => "expected `,` or `]`"
  | noObjectComma => "expected `,` or `\x7d`"
  | danglingComma => "trailing comma"
  | leftover => "trailing characters"
  | keyNotText => "key must be a string"
  | badNumber => "invalid number"
  | hugeNumber => "number out of range"
  | badEscape => "invalid escape"
  | cutSurrogate => "unexpected end of hex escape"
  | loneSurrogate => "lone leading surrogate in hex escape"
  | controlCharacter => "control character (\\u0000-\\u001F) found while parsing a string"
  | tooDeep => "recursion limit exceeded"

/-- A number of a JSON text: whole if it is written without point and exponent and fits 64 bits. -/
inductive Number where
  | integer (n : Int)
  | float (x : Float)

/-- What stands where something else is wanted. -/
inductive Found where
  | null
  | bool (b : Bool)
  | number (n : Number)
  | text (s : String)
  | list
  | object

def Found.describe : Found → String
  | null => "null"
  | bool b => "boolean `" ++ toString b ++ "`"
  | number (.integer n) => "integer `" ++ toString n ++ "`"
  | number (.float x) => "floating point `" ++ numberText x ++ "`"
  | text s => "string " ++ Text.quote s
  | list => "sequence"
  | object => "map"

inductive Error where
  | malformed (fault : Fault)
  | wrongType (found : Found) (wanted : String)
  | outOfRange (n : Int) (wanted : String)
  | missingField (name : String)
  | duplicateField (name : String)
  /-- A record written as a list lacks its field number `index`. -/
  | tooShort (index : Nat) (record : String) (size : Nat)
  | noVariant (name : String)
  | refused (reason : String)

def Error.message : Error → String
  | malformed fault => fault.message
  | wrongType found wanted => "invalid type: " ++ found.describe ++ ", expected " ++ wanted
  | outOfRange n wanted => "invalid value: integer `" ++ toString n ++ "`, expected " ++ wanted
  | missingField name => "missing field `" ++ name ++ "`"
  | duplicateField name => "duplicate field `" ++ name ++ "`"
  | tooShort index record size =>
    "invalid length " ++ toString index ++ ", expected struct " ++ record ++ " with " ++
      toString size ++ (if size == 1 then " element" else " elements")
  | noVariant name => "data did not match any variant of untagged enum " ++ name
  | refused reason => reason

end BlockStage.Json
