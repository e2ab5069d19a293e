import BlockStage.Block

/-!
All blocks of a target, with an index of its procedures: the signature of a code comes from the
first prototype by id whose mutation has one, the definition is the first hat by id that holds a
prototype with the code. Prototypes that are left out give a warning each.
-/

namespace BlockStage

def prototypeOpcode : String := "procedures_prototype"

def definitionOpcode : String := "procedures_definition"

/-- Why a prototype is not indexed. -/
inductive Warning where
  | noMutation (id : String)
  | noCode (id : String)
  | repeated (id code : String)
  | malformed (error : MutationError)

def Warning.message : Warning → String
  | noMutation id => "prototype " ++ id ++ " has no mutation, skipping"
  | noCode id => "prototype " ++ id ++ " has no proccode, skipping"
  | repeated id code =>
    "prototype " ++ id ++ " redefines " ++ Text.quote code ++ ", keeping the first"
  | malformed error => error.message ++ ", skipping"

namespace Blocks

/-- The code and signature of a prototype, among prototypes indexed before. -/
def readPrototype (signatures : Named Signature) (id : String) (b : Block) :
    Except Warning (String × Signature) :=
  match b.mutation with
  | none => .error (.noMutation id)
  | some m =>
    match m.code with
    | none => .error (.noCode id)
    | some code =>
      if code ∈ signatures then .error (.repeated id code)
      else
        match Signature.ofMutation id m with
        | .ok signature => .ok (code, signature)
        | .error error => .error (.malformed error)

/-- Adds a block to the signatures if it is a prototype. -/
def indexPrototype (index : Named Signature × List Warning) (id : String) (b : Block) :
    Named Signature × List Warning :=
  if b.opcode = prototypeOpcode then
    match readPrototype index.1 id b with
    | .ok (code, signature) => (index.1.insert code signature, index.2)
    | .error warning => (index.1, index.2 ++ [warning])
  else index

/-- Signatures by code, and a warning for each prototype without one, in the order of ids. -/
def indexPrototypes (blocks : Named Block) : Named Signature × List Warning :=
  blocks.foldl indexPrototype (∅, [])

/-- The code of the prototype plugged into a definition. -/
def definedCode? (blocks : Named Block) (b : Block) : Option String := do
  let prototype ← b.plugged? "custom_block"
  let block ← blocks[prototype]?
  block.code?

/-- Adds a block to the definitions if it defines a procedure that has a signature. -/
def indexDefinition (blocks : Named Block) (signatures : Named Signature)
    (definitions : Named String) (id : String) (b : Block) : Named String :=
  if b.opcode = definitionOpcode then
    match definedCode? blocks b with
    | some code => if code ∈ signatures then definitions.insertIfNew code id else definitions
    | none => definitions
  else definitions

def indexDefinitions (blocks : Named Block) (signatures : Named Signature) : Named String :=
  blocks.foldl (indexDefinition blocks signatures) ∅

end Blocks

/-- Blocks beside the index of their procedures. -/
structure Blocks where
  byId : Named Block
  signatures : Named Signature
  definitions : Named String
  signatures_eq : signatures = (Blocks.indexPrototypes byId).1
  definitions_eq : definitions = Blocks.indexDefinitions byId signatures

namespace Blocks

def ofNamed (blocks : Named Block) : Blocks where
  byId := blocks
  signatures := (indexPrototypes blocks).1
  definitions := indexDefinitions blocks (indexPrototypes blocks).1
  signatures_eq := rfl
  definitions_eq := rfl

/-- Blocks come with no other index than their own. -/
theorem eq_ofNamed (bs : Blocks) : bs = ofNamed bs.byId := by
  obtain ⟨byId, signatures, definitions, hs, hd⟩ := bs
  subst hs hd
  rfl

def warnings (blocks : Named Block) : List Warning := (indexPrototypes blocks).2

def block? (bs : Blocks) (id : String) : Option Block := bs.byId[id]?

def size (bs : Blocks) : Nat := bs.byId.size

def signature? (bs : Blocks) (code : String) : Option Signature := bs.signatures[code]?

/-- The definition of a procedure. -/
def definition? (bs : Blocks) (code : String) : Option String := bs.definitions[code]?

/-- The codes that have a signature, in order. -/
def codes (bs : Blocks) : List String := bs.signatures.keys

/-- The top-level blocks with an opcode, in the order of ids. -/
def hats (bs : Blocks) (opcode : String) : List String :=
  (bs.byId.toList.filter fun (_, b) => b.topLevel && b.opcode == opcode).map (·.1)

theorem mem_hats_iff (bs : Blocks) (opcode id : String) :
    id ∈ bs.hats opcode ↔ ∃ b, bs.block? id = some b ∧ b.topLevel ∧ b.opcode = opcode := by
  simp only [hats, List.mem_map, List.mem_filter, Bool.and_eq_true, beq_iff_eq, Prod.exists,
    exists_and_right, exists_eq_right, Std.ExtTreeMap.mem_toList_iff_getElem?_eq_some, block?]

/-- The first block of the branch plugged into an input of `caller`. -/
def branch? (bs : Blocks) (caller entry : String) : Option String :=
  (bs.block? caller).bind (·.plugged? entry)

end Blocks

end BlockStage
