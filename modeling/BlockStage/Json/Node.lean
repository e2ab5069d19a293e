import BlockStage.Json.Fault

/-!
The tree of a JSON text with its first fault in place. Which message a fault gives depends on what
the text was read for, so a break in the tree holds one fault for each reading; a text or number
that is well formed and yet has no value can be skipped but not read.
-/

namespace BlockStage.Json

/-- Where a text stops being JSON: the fault met by one who reads on, by one who skips what stands
here, and by one who wants the list to end. -/
structure Break where
  reading : Fault
  skipping : Fault
  finishing : Fault
  deriving DecidableEq, Repr

def Break.always (fault : Fault) : Break := ⟨fault, fault, fault⟩

inductive Node where
  | null
  | bool (b : Bool)
  | number (n : Except Fault Number)
  | text (s : Except Fault String)
  /-- A list is closed unless it has a break after its items. -/
  | list (items : List Node) (break? : Option Break)
  /-- The same key may stand more than once. -/
  | object (members : List (Except Fault String × Node)) (break? : Option Break)
  | broken (b : Break)

end BlockStage.Json
