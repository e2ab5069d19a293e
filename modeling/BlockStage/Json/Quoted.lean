import BlockStage.Json.Node

/-!
Reading a JSON text between its quotes. An escaped surrogate without its partner leaves the text
without contents, though its end can still be found.
-/

namespace BlockStage.Json

def hexValue? (c : Char) : Option Nat :=
  if c.isDigit then some (c.toNat - '0'.toNat)
  else if 'a' ≤ c ∧ c ≤ 'f' then some (c.toNat - 'a'.toNat + 10)
  else if 'A' ≤ c ∧ c ≤ 'F' then some (c.toNat - 'A'.toNat + 10)
  else none

/-- The code unit that four hexadecimal digits name. -/
def hexUnit? (a b c d : Char) : Option Nat := do
  return 4096 * (← hexValue? a) + 256 * (← hexValue? b) + 16 * (← hexValue? c) + (← hexValue? d)

/-- The character that a backslash and one more character stand for. -/
def simpleEscape? (c : Char) : Option Char :=
  match c with
  | '"' => some '"'
  | '\\' => some '\\'
  | '/' => some '/'
  | 'b' => some '\x08'
  | 'f' => some '\x0c'
  | 'n' => some '\n'
  | 'r' => some '\r'
  | 't' => some '\t'
  | _ => none

def isHighSurrogate (unit : Nat) : Bool := 0xd800 ≤ unit && unit ≤ 0xdbff

def isLowSurrogate (unit : Nat) : Bool := 0xdc00 ≤ unit && unit ≤ 0xdfff

/-- What has been read of a text, the last character first. -/
inductive Progress where
  | whole (read : List Char)
  /-- A high surrogate came last and waits for its low half. -/
  | half (read : List Char) (high : Nat)
  /-- A surrogate has no partner. -/
  | faulty (fault : Fault)

namespace Progress

def char (c : Char) : Progress → Progress
  | whole read => whole (c :: read)
  | half _ _ => faulty .cutSurrogate
  | faulty fault => faulty fault

def unit (u : Nat) : Progress → Progress
  | whole read =>
    if isHighSurrogate u then half read u
    else if isLowSurrogate u then faulty .loneSurrogate
    else whole (Char.ofNat u :: read)
  | half read high =>
    if isLowSurrogate u then
      whole (Char.ofNat (0x10000 + (high - 0xd800) * 0x400 + (u - 0xdc00)) :: read)
    else faulty .loneSurrogate
  | faulty fault => faulty fault

def contents : Progress → Except Fault String
  | whole read => .ok (String.ofList read.reverse)
  | half _ _ => .error .cutSurrogate
  | faulty fault => .error fault

/-- The break that `fault` makes here; one who reads has met an earlier fault first. -/
def breakAt (fault : Fault) : Progress → Break
  | faulty earlier => ⟨earlier, fault, fault⟩
  | _ => .always fault

end Progress

/-- A text after its opening quote: its contents and what follows the closing quote, or the break
before that quote. -/
inductive Quoted where
  | closed (contents : Except Fault String) (rest : List Char)
  | broken (b : Break)

/-- Reads up to the closing quote. An escape with fewer than four bytes after its `u` is cut off. -/
def readQuoted (p : Progress) : List Char → Quoted
  | [] => .broken (p.breakAt .endInText)
  | '"' :: cs => .closed p.contents cs
  | '\\' :: [] => .broken (p.breakAt .endInText)
  | '\\' :: 'u' :: a :: b :: c :: d :: cs =>
    match hexUnit? a b c d with
    | some u => readQuoted (p.unit u) cs
    | none => .broken (p.breakAt .badEscape)
  | '\\' :: 'u' :: cs =>
    .broken (p.breakAt (if (String.ofList cs).utf8ByteSize < 4 then .endInText else .badEscape))
  | '\\' :: c :: cs =>
    match simpleEscape? c with
    | some escaped => readQuoted (p.char escaped) cs
    | none => .broken ((p.char c).breakAt .badEscape)
  | c :: cs =>
    if c.toNat < 0x20 then .broken ((p.char c).breakAt .controlCharacter)
    else readQuoted (p.char c) cs

end BlockStage.Json
