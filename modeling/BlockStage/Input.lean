import BlockStage.Value

/-!
Inputs of a block. An input is written as a list: a shadow number, then what fills the input, then
whatever the editor remembers.
-/

namespace BlockStage

/-- A broadcast, variable or list, by name and id. -/
structure Reference where
  name : String
  id : String
  deriving DecidableEq, Repr

inductive Input where
  | block (id : String)
  | value (v : Value)
  | broadcastRef (r : Reference)
  | variableRef (r : Reference)
  | listRef (r : Reference)
  | empty

namespace Input

/-- The block plugged into the input. -/
def block? : Input → Option String
  | block id => some id
  | _ => none

/-- Why a list of values fills no input. -/
inductive Refusal where
  | tooFew
  | kindNotWhole
  | noId (kind : Int64)
  | unknownKind (kind : Int64)

def Refusal.message : Refusal → String
  | tooFew => "primitive input needs a kind and a value"
  | kindNotWhole => "primitive kind must be an integer"
  | noId kind => "reference input " ++ toString kind.toInt ++ " needs a name and an id"
  | unknownKind kind => "unknown primitive kind " ++ toString kind.toInt

/-- What a list of values fills an input with. The first value is the kind: 4 to 10 hold a value,
11 to 13 refer to something by name and id. -/
def ofValues : List Value → Except Refusal Input
  | .integer kind :: first :: rest =>
    if 4 ≤ kind ∧ kind ≤ 10 then .ok (value first)
    else if 11 ≤ kind ∧ kind ≤ 13 then
      match rest with
      | [] => .error (.noId kind)
      | id :: _ =>
        let reference : Reference := ⟨first.display, id.display⟩
        if kind = 11 then .ok (broadcastRef reference)
        else if kind = 12 then .ok (variableRef reference)
        else .ok (listRef reference)
    else .error (.unknownKind kind)
  | _ :: _ :: _ => .error .kindNotWhole
  | _ => .error .tooFew

/-- What fills an input: nothing, a block, or a list of values. -/
def decodeFilling : Json.Decoder Input
  | _, .null => .ok empty
  | depth, node => do
    node.check depth
    match node with
    | .text (.ok id) => return block id
    | .list nodes _ =>
      match nodes.mapM Value.ofNode? with
      | some values =>
        match ofValues values with
        | .ok input => return input
        | .error refusal => throw (.refused refusal.message)
      | none => throw (.noVariant "T")
    | _ => throw (.noVariant "T")

def decode : Json.Decoder Input
  | depth, .list nodes break? => do
    let inner ← Json.enter depth
    match nodes with
    | [] => do
      Json.stopAt Json.Break.reading break?
      return empty
    | [shadow] => do
      let _ ← Json.Decoder.int32 inner shadow
      Json.stopAt Json.Break.reading break?
      return empty
    | shadow :: filling :: others => do
      let _ ← Json.Decoder.int32 inner shadow
      let input ← decodeFilling inner filling
      Json.Node.checkItems inner others
      Json.stopAt Json.Break.reading break?
      return input
  | _, node => .error (node.mismatch "Input")

end Input

end BlockStage
