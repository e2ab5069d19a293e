import Std.Data.ExtTreeMap
import BlockStage.Field
import BlockStage.Input
import BlockStage.Signature

/-!
Blocks of a script, and the arguments a block runs with. Names and ids are kept in the order of
their code points.
-/

namespace BlockStage

/-- Things by name or id. -/
abbrev Named (α : Type) := Std.ExtTreeMap String α

structure Block where
  opcode : String := ""
  next : Option String := none
  parent : Option String := none
  inputs : Named Input := ∅
  fields : Named Field := ∅
  mutation : Option Mutation := none
  shadow : Bool := false
  topLevel : Bool := false

namespace Block

open Json (Record Decoder)

/-- An object as a map from its keys; of a repeated key the last value counts. -/
def decodeNamed (decode : Decoder α) : Decoder (Named α) := fun depth node => do
  let members ← Decoder.object decode depth node
  return .ofList members

def record : Record Block where
  name := "Block"
  blank := {}
  fields := [
    .needed "opcode" .string fun opcode b => { b with opcode },
    .defaulted "next" (Decoder.optional .string) fun next b => { b with next },
    .defaulted "parent" (Decoder.optional .string) fun parent b => { b with parent },
    .defaulted "inputs" (decodeNamed Input.decode) fun inputs b => { b with inputs },
    .defaulted "fields" (decodeNamed Field.decode) fun fields b => { b with fields },
    .defaulted "mutation" (Decoder.optional Mutation.decode) fun mutation b => { b with mutation },
    .defaulted "shadow" .boolean fun shadow b => { b with shadow },
    .defaulted "topLevel" .boolean fun topLevel b => { b with topLevel }]

def decode : Decoder Block := record.decode

/-- The procedure code in the mutation of the block. -/
def code? (b : Block) : Option String := b.mutation.bind (·.code)

/-- The block plugged into an input. -/
def plugged? (b : Block) (input : String) : Option String := b.inputs[input]?.bind Input.block?

end Block

/-- Values of inputs and fields by name, and the mutation of the block if it has one. -/
structure Arguments where
  values : Named Value := ∅
  mutation : Option Mutation := none

def Arguments.code? (args : Arguments) : Option String := args.mutation.bind (·.code)

end BlockStage
