import BlockStage.Decimal.Notation
import BlockStage.Text.Quoted

/-!
JSON values and their two texts: compact, and indented by two spaces. The members of an object are
written in the order in which they stand.
-/

namespace BlockStage

inductive Json where
  | null
  | bool (b : Bool)
  | integer (n : Int)
  | number (x : Float)
  | text (s : String)
  | list (items : List Json)
  | object (members : List (String × Json))
  deriving Inhabited

namespace Json

/-- A character of a text: quotes, backslashes and control characters are escaped. -/
def escapeChar (c : Char) : List Char :=
  match c with
  | '"' => ['\\', '"']
  | '\\' => ['\\', '\\']
  | '\x08' => ['\\', 'b']
  | '\t' => ['\\', 't']
  | '\n' => ['\\', 'n']
  | '\x0c' => ['\\', 'f']
  | '\r' => ['\\', 'r']
  | c =>
    if c.toNat < 0x20 then
      ['\\', 'u', '0', '0', Nat.digitChar (c.toNat / 16), Nat.digitChar (c.toNat % 16)]
    else [c]

def quoteText (s : String) : String :=
  "\"" ++ String.ofList (s.toList.flatMap escapeChar) ++ "\""

/-- A float without a JSON number becomes null. -/
def numberText (x : Float) : String := (Decimal.jsonNumber? x).getD "null"

mutual

def compact : Json → String
  | null => "null"
  | bool b => if b then "true" else "false"
  | integer n => toString n
  | number x => numberText x
  | text s => quoteText s
  | list items => "[" ++ ",".intercalate (compactItems items) ++ "]"
  | object members => "\x7b" ++ ",".intercalate (compactMembers members) ++ "\x7d"

def compactItems : List Json → List String
  | [] => []
  | item :: items => compact item :: compactItems items

def compactMembers : List (String × Json) → List String
  | [] => []
  | (key, value) :: members => (quoteText key ++ ":" ++ compact value) :: compactMembers members

end

def newline (depth : Nat) : String := "\n" ++ "".pushn ' ' (2 * depth)

/-- Parts between brackets, each on its own line; nothing stands between empty brackets. -/
def bracketed (opening closing : String) (depth : Nat) (parts : List String) : String :=
  if parts.isEmpty then opening ++ closing
  else
    opening ++ newline (depth + 1) ++ ("," ++ newline (depth + 1)).intercalate parts ++
      newline depth ++ closing

mutual

def indentedAt (depth : Nat) : Json → String
  | list items => bracketed "[" "]" depth (indentedItems (depth + 1) items)
  | object members => bracketed "\x7b" "\x7d" depth (indentedMembers (depth + 1) members)
  | null => "null"
  | bool b => if b then "true" else "false"
  | integer n => toString n
  | number x => numberText x
  | text s => quoteText s

def indentedItems (depth : Nat) : List Json → List String
  | [] => []
  | item :: items => indentedAt depth item :: indentedItems depth items

def indentedMembers (depth : Nat) : List (String × Json) → List String
  | [] => []
  | (key, value) :: members =>
    (quoteText key ++ ": " ++ indentedAt depth value) :: indentedMembers depth members

end

def indented (j : Json) : String := j.indentedAt 0

end Json

end BlockStage
