import BlockStage.Value

/-!
Mutations, which prototypes and calls of procedures carry. The three lists about arguments are JSON
texts inside the JSON of the project.
-/

namespace BlockStage

structure Mutation where
  /-- The procedure code: the words of the procedure with its argument slots. -/
  code : Option String := none
  argumentIds : Option String := none
  argumentNames : Option String := none
  argumentDefaults : Option String := none
  warp : Option Value := none

namespace Mutation

open Json (Record Decoder)

def record : Record Mutation where
  name := "Mutation"
  blank := {}
  fields := [
    .defaulted "proccode" (Decoder.optional .string) fun code m => { m with code },
    .defaulted "argumentids" (Decoder.optional .string) fun argumentIds m => { m with argumentIds },
    .defaulted "argumentnames" (Decoder.optional .string) fun argumentNames m =>
      { m with argumentNames },
    .defaulted "argumentdefaults" (Decoder.optional .string) fun argumentDefaults m =>
      { m with argumentDefaults },
    .defaulted "warp" (Decoder.optional Value.decode) fun warp m => { m with warp }]

def decode : Decoder Mutation := record.decode

end Mutation

end BlockStage
