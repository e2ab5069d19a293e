import BlockStage.Value

/-!
Fields of a block: a value picked in the editor, with the id of what it names, if it names anything.
-/

namespace BlockStage

structure Field where
  value : Value
  id : Option String

namespace Field

/-- A field is written as its value and its id; what follows them does not count. -/
def ofParts (parts : List (Option Value)) : Field :=
  ⟨(parts.head?.join).getD .zero, (parts[1]?.join).map Value.display⟩

def decode : Json.Decoder Field := fun depth node => do
  let parts ← Json.Decoder.list (Json.Decoder.optional Value.decode) depth node
  return ofParts parts

end Field

end BlockStage
