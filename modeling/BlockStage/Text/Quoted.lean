import BlockStage.Text.Unprinted

/-!
Text as messages quote it: between double quotes, on one line, with every character visible.
-/

namespace BlockStage.Text

/-- Lower-case hexadecimal digits of `n`. -/
def hex (n : Nat) : String := String.ofList (Nat.toDigits 16 n)

/-- A character between quotes: by itself, after a backslash, or by number. -/
def quoteChar (c : Char) : String :=
  match c with
  | '"' => "\\\""
  | '\\' => "\\\\"
  | '\n' => "\\n"
  | '\r' => "\\r"
  | '\t' => "\\t"
  | '\x00' => "\\0"
  | c => if isUnprinted c then "\\u\x7b" ++ hex c.toNat ++ "\x7d" else c.toString

def quote (s : String) : String :=
  "\"" ++ String.join (s.toList.map quoteChar) ++ "\""

end BlockStage.Text
