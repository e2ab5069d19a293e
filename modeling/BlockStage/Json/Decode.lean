import BlockStage.Json.Reader

/-!
Decoders take a tree to data from left to right and stop at the first fault, be it one of the text
or one of the data. They count how many more brackets may be opened; what no decoder asks for is
skipped without a count.
-/

namespace BlockStage.Json

/-- The brackets of a text nest less deep than this. -/
def depthLimit : Nat := 128

/-- Decodes a node inside which `depth` brackets may not be opened. -/
abbrev Decoder (α : Type) := (depth : Nat) → Node → Except Error α

/-- Opens a bracket: the depth that is left inside it. -/
def enter (depth : Nat) : Except Error Nat :=
  if depth ≤ 1 then .error (.malformed .tooDeep) else .ok (depth - 1)

/-- Stops at a break, if there is one. -/
def stopAt (side : Break → Fault) : Option Break → Except Error Unit
  | some b => .error (.malformed (side b))
  | none => .ok ()

def ofFault : Except Fault α → Except Error α
  | .ok a => .ok a
  | .error fault => .error (.malformed fault)

namespace Node

mutual

/-- Passes over a value. Its texts and numbers need not have contents. -/
def skip : Node → Except Error Unit
  | broken b => .error (.malformed b.skipping)
  | list items break? => do
    skipItems items
    stopAt Break.skipping break?
  | object members break? => do
    skipMembers members
    stopAt Break.skipping break?
  | _ => .ok ()

def skipItems : List Node → Except Error Unit
  | [] => .ok ()
  | item :: items => do
    skip item
    skipItems items

def skipMembers : List (Except Fault String × Node) → Except Error Unit
  | [] => .ok ()
  | (_, value) :: members => do
    skip value
    skipMembers members

end

mutual

/-- Reads the whole of a value, whatever it is. -/
def check (depth : Nat) : Node → Except Error Unit
  | broken b => .error (.malformed b.reading)
  | number n => do
    let _ ← ofFault n
  | text s => do
    let _ ← ofFault s
  | list items break? => do
    let inner ← enter depth
    checkItems inner items
    stopAt Break.reading break?
  | object members break? => do
    let inner ← enter depth
    checkMembers inner members
    stopAt Break.reading break?
  | _ => .ok ()

def checkItems (depth : Nat) : List Node → Except Error Unit
  | [] => .ok ()
  | item :: items => do
    check depth item
    checkItems depth items

def checkMembers (depth : Nat) : List (Except Fault String × Node) → Except Error Unit
  | [] => .ok ()
  | (key, value) :: members => do
    let _ ← ofFault key
    check depth value
    checkMembers depth members

end

/-- The error where `wanted` is wanted and this node stands. -/
def mismatch (wanted : String) : Node → Error
  | null => .wrongType .null wanted
  | bool b => .wrongType (.bool b) wanted
  | number (.ok n) => .wrongType (.number n) wanted
  | number (.error fault) => .malformed fault
  | text (.ok s) => .wrongType (.text s) wanted
  | text (.error fault) => .malformed fault
  | list _ _ => .wrongType .list wanted
  | object _ _ => .wrongType .object wanted
  | broken b => .malformed b.reading

end Node

namespace Decoder

def string : Decoder String
  | _, .text s => ofFault s
  | _, node => .error (node.mismatch "a string")

def boolean : Decoder Bool
  | _, .bool b => .ok b
  | _, node => .error (node.mismatch "a boolean")

def float : Decoder Float
  | _, .number (.ok (.integer n)) => .ok (.ofInt n)
  | _, .number (.ok (.float x)) => .ok x
  | _, node => .error (node.mismatch "f64")

/-- A whole number from `low` to `high`. -/
def whole (wanted : String) (low high : Int) : Decoder Int
  | _, .number (.ok (.integer n)) =>
    if low ≤ n ∧ n ≤ high then .ok n else .error (.outOfRange n wanted)
  | _, node => .error (node.mismatch wanted)

/-- A whole number of 32 bits with sign. -/
def int32 : Decoder Int := whole "i32" (-2147483648) 2147483647

/-- A whole number of 64 bits without sign. -/
def size : Decoder Nat := fun depth node => do
  let n ← whole "usize" 0 18446744073709551615 depth node
  return n.toNat

/-- Null stands for absence. -/
def optional (decode : Decoder α) : Decoder (Option α)
  | _, .null => .ok none
  | depth, node => do
    let a ← decode depth node
    return some a

def items (decode : Decoder α) (depth : Nat) : List Node → Except Error (List α)
  | [] => .ok []
  | node :: nodes => do
    let a ← decode depth node
    let rest ← items decode depth nodes
    return a :: rest

def list (decode : Decoder α) : Decoder (List α)
  | depth, .list nodes break? => do
    let inner ← enter depth
    let as ← items decode inner nodes
    stopAt Break.reading break?
    return as
  | _, node => .error (node.mismatch "a sequence")

def members (decode : Decoder α) (depth : Nat) :
    List (Except Fault String × Node) → Except Error (List (String × α))
  | [] => .ok []
  | (key, node) :: rest => do
    let key ← ofFault key
    let a ← decode depth node
    let rest ← members decode depth rest
    return (key, a) :: rest

/-- The members of an object in the order of the text, with repeated keys. -/
def object (decode : Decoder α) : Decoder (List (String × α))
  | depth, .object pairs break? => do
    let inner ← enter depth
    let as ← members decode inner pairs
    stopAt Break.reading break?
    return as
  | _, node => .error (node.mismatch "a map")

end Decoder

/-- A named part of a record. A decoded part is put into the record; one that is not there keeps the
record's default unless it is required. -/
structure Field (σ : Type) where
  name : String
  required : Bool
  put : (depth : Nat) → Node → σ → Except Error σ

namespace Field

variable {σ : Type}

/-- A field that a decoder reads and a setter puts in place. -/
def needed (name : String) (decode : Decoder α) (set : α → σ → σ) : Field σ :=
  ⟨name, true, fun depth node s => (decode depth node).map (set · s)⟩

def defaulted (name : String) (decode : Decoder α) (set : α → σ → σ) : Field σ :=
  { needed name decode set with required := false }

end Field

/-- A record is written as an object of its fields or as the list of them. -/
structure Record (σ : Type) where
  name : String
  blank : σ
  fields : List (Field σ)

namespace Record

variable {σ : Type}

/-- Items that stand for `fields`, of which `index` have been read. -/
def readItems (r : Record σ) (depth : Nat) (break? : Option Break) :
    (index : Nat) → List (Field σ) → List Node → σ → Except Error σ
  | _, [], [], s => do
    stopAt Break.finishing break?
    return s
  | _, [], _ :: _, _ => .error (.malformed .leftover)
  | index, field :: fields, [], s => do
    stopAt Break.reading break?
    if field.required then throw (.tooShort index r.name r.fields.length)
    readItems r depth break? (index + 1) fields [] s
  | index, field :: fields, node :: nodes, s => do
    let s ← field.put depth node s
    readItems r depth break? (index + 1) fields nodes s

/-- Members of an object; `seen` are the names of the fields read before. -/
def readMembers (r : Record σ) (depth : Nat) :
    List String → List (Except Fault String × Node) → σ → Except Error (List String × σ)
  | seen, [], s => .ok (seen, s)
  | seen, (key, node) :: rest, s => do
    let key ← ofFault key
    match r.fields.find? (·.name == key) with
    | none => do
      node.skip
      readMembers r depth seen rest s
    | some field => do
      if seen.contains key then throw (.duplicateField key)
      let s ← field.put depth node s
      readMembers r depth (key :: seen) rest s

def decode (r : Record σ) : Decoder σ
  | depth, .list nodes break? => do
    let inner ← enter depth
    r.readItems inner break? 0 r.fields nodes r.blank
  | depth, .object members break? => do
    let inner ← enter depth
    let (seen, s) ← r.readMembers inner [] members r.blank
    stopAt Break.reading break?
    match r.fields.find? fun field => field.required && !seen.contains field.name with
    | some field => throw (.missingField field.name)
    | none => return s
  | _, node => .error (node.mismatch ("struct " ++ r.name))

end Record

/-- Decodes the whole of a text. -/
def decodeText (decode : Decoder α) (text : String) : Except Error α := do
  let source := Source.ofText text
  let a ← decode depthLimit source.root
  if (skipBlanks source.rest).isEmpty then return a else throw (.malformed .leftover)

end BlockStage.Json
