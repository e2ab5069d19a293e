import BlockStage.Json.Numeral
import BlockStage.Json.Quoted

/-!
The tree of a JSON text. Reading stops at the first fault: what follows it belongs to no tree, and
the lists and objects around it stay open.
-/

namespace BlockStage.Json

def isJsonBlank (c : Char) : Bool := c == ' ' || c == '\n' || c == '\t' || c == '\r'

def skipBlanks (cs : List Char) : List Char := cs.dropWhile isJsonBlank

/-- Reads the rest of a word; `none` if the text goes on with something else. -/
def readWord (value : Node) : List Char → List Char → Node × List Char
  | [], cs => (value, cs)
  | _ :: _, [] => (.broken (.always .endInValue), [])
  | w :: ws, c :: cs =>
    if w == c then readWord value ws cs else (.broken (.always .misspelt), [])

/-- What stands after an item of a list: a comma and another item, or the end of the list. -/
inductive Next where
  | more (rest : List Char)
  | closed (rest : List Char)
  | broken (b : Break)

def nextItem (cs : List Char) : Next :=
  match skipBlanks cs with
  | [] => .broken (.always .endInList)
  | ']' :: cs => .closed cs
  | ',' :: cs =>
    match skipBlanks cs with
    | [] => .broken ⟨.endInValue, .endInValue, .leftover⟩
    | ']' :: _ => .broken ⟨.danglingComma, .noValue, .danglingComma⟩
    | cs => .more cs
  | _ => .broken ⟨.noListComma, .noListComma, .leftover⟩

def nextMember (cs : List Char) : Next :=
  match skipBlanks cs with
  | [] => .broken (.always .endInObject)
  | '\x7d' :: cs => .closed cs
  | ',' :: cs =>
    match skipBlanks cs with
    | [] => .broken ⟨.endInValue, .endInObject, .endInValue⟩
    | '\x7d' :: _ => .broken ⟨.danglingComma, .keyNotText, .danglingComma⟩
    | cs => .more cs
  | _ => .broken (.always .noObjectComma)

mutual

/-- The value at the start of `cs` and what follows it; `fuel` bounds the values and brackets. -/
def readNode : Nat → List Char → Node × List Char
  | 0, _ => (.broken (.always .endInValue), [])
  | fuel + 1, cs =>
    match skipBlanks cs with
    | [] => (.broken (.always .endInValue), [])
    | 'n' :: cs => readWord .null "ull".toList cs
    | 't' :: cs => readWord (.bool true) "rue".toList cs
    | 'f' :: cs => readWord (.bool false) "alse".toList cs
    | '"' :: cs =>
      match readQuoted (.whole []) cs with
      | .closed contents rest => (.text contents, rest)
      | .broken b => (.broken b, [])
    | '-' :: cs => readUnsigned true cs
    | '[' :: cs =>
      match skipBlanks cs with
      | ']' :: cs => (.list [] none, cs)
      | [] => (.list [] (some (.always .endInList)), [])
      | cs =>
        let (items, break?, rest) := readItems fuel cs
        (.list items break?, rest)
    | '\x7b' :: cs =>
      match skipBlanks cs with
      | '\x7d' :: cs => (.object [] none, cs)
      | [] => (.object [] (some (.always .endInObject)), [])
      | cs =>
        let (members, break?, rest) := readMembers fuel cs
        (.object members break?, rest)
    | c :: cs =>
      if c.isDigit then readUnsigned false (c :: cs) else (.broken (.always .noValue), [])

/-- Items from the start of `cs` up to the closing bracket. -/
def readItems : Nat → List Char → List Node × Option Break × List Char
  | 0, _ => ([], some (.always .endInList), [])
  | fuel + 1, cs =>
    let (item, rest) := readNode fuel cs
    match nextItem rest with
    | .closed rest => ([item], none, rest)
    | .broken b => ([item], some b, [])
    | .more rest =>
      let (items, break?, rest) := readItems fuel rest
      (item :: items, break?, rest)

/-- Members from the start of `cs` up to the closing brace. -/
def readMembers : Nat → List Char →
    List (Except Fault String × Node) × Option Break × List Char
  | 0, _ => ([], some (.always .endInObject), [])
  | fuel + 1, '"' :: cs =>
    match readQuoted (.whole []) cs with
    | .broken b => ([], some b, [])
    | .closed key rest =>
      match skipBlanks rest with
      | [] => ([(key, .broken (.always .endInObject))], none, [])
      | ':' :: rest =>
        let (value, rest) := readNode fuel rest
        match nextMember rest with
        | .closed rest => ([(key, value)], none, rest)
        | .broken b => ([(key, value)], some b, [])
        | .more rest =>
          let (members, break?, rest) := readMembers fuel rest
          ((key, value) :: members, break?, rest)
      | _ => ([(key, .broken (.always .noColon))], none, [])
  | _ + 1, _ => ([], some (.always .keyNotText), [])

end

/-- A JSON text: the tree of its first value, and what follows that. -/
structure Source where
  root : Node
  rest : List Char

/-- Each value and each bracket takes a character, so twice the length is fuel enough. -/
def Source.ofText (text : String) : Source :=
  let cs := text.toList
  let (root, rest) := readNode (2 * cs.length + 1) cs
  ⟨root, rest⟩

end BlockStage.Json
