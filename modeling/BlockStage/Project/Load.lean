import BlockStage.Project

/-!
Loading a project from its JSON text.
-/

namespace BlockStage

open Json (Record Decoder)

/-- A size and a centre, from which a costume's size follows. -/
structure CostumeRecord where
  resolution : Float := 1
  centerX : Float := 0
  centerY : Float := 0

namespace CostumeRecord

def record : Record CostumeRecord where
  name := "Costume"
  blank := {}
  fields := [
    .defaulted "bitmapResolution" .float fun resolution c => { c with resolution },
    .defaulted "rotationCenterX" .float fun centerX c => { c with centerX },
    .defaulted "rotationCenterY" .float fun centerY c => { c with centerY }]

/-- Twice the distance from the corner to the centre, in stage pixels. -/
def size (c : CostumeRecord) : Vec Float :=
  let resolution := if c.resolution < 1 then 1 else c.resolution
  ((⟨c.centerX, c.centerY⟩ : Vec Float).scale 2).divide resolution

end CostumeRecord

/-- An entry among the blocks of a target: a block, or the reporter of a variable or list on the
stage, which is a bare list. -/
def decodeEntry : Decoder (Option Block) := fun depth node => do
  node.check depth
  match Block.decode depth node, node with
  | .ok block, _ => return some block
  | .error _, .list _ _ => return none
  | .error _, _ => throw (.noVariant "BlockEntry")

/-- The entries that are blocks. Of a repeated key the last entry counts, be it a block or not. -/
def blocksOfEntries (entries : Named (Option Block)) : Named Block :=
  entries.filterMap fun _ entry => entry

structure TargetRecord where
  id : Option String := none
  isStage : Bool := false
  name : String := ""
  blocks : Named (Option Block) := ∅
  state : TargetState := {}
  costumes : List CostumeRecord := []

namespace TargetRecord

def record : Record TargetRecord where
  name := "Target"
  blank := {}
  fields := [
    .defaulted "id" (Decoder.optional .string) fun id t => { t with id },
    .needed "isStage" .boolean fun isStage t => { t with isStage },
    .needed "name" .string fun name t => { t with name },
    .defaulted "blocks" (Block.decodeNamed decodeEntry) fun blocks t => { t with blocks },
    .defaulted "currentCostume" .size fun costume t => { t with state.costume := costume },
    .defaulted "costumes" (Decoder.list CostumeRecord.record.decode) fun costumes t =>
      { t with costumes },
    .defaulted "x" .float fun x t => { t with state.x := x },
    .defaulted "y" .float fun y t => { t with state.y := y },
    .defaulted "size" .float fun size t => { t with state.size := size },
    .defaulted "direction" .float fun direction t => { t with state.direction := direction }]

/-- A target without an id of its own goes by its name. -/
def toTarget (t : TargetRecord) : Target where
  id := t.id.getD t.name
  name := t.name
  isStage := t.isStage
  blocks := .ofNamed (blocksOfEntries t.blocks)
  costumes := t.costumes.map CostumeRecord.size
  state := t.state

def warnings (t : TargetRecord) : List Warning := Blocks.warnings (blocksOfEntries t.blocks)

end TargetRecord

/-- What is read of a project; other parts are skipped. -/
structure ProjectRecord where
  targets : List TargetRecord := []

def ProjectRecord.record : Record ProjectRecord where
  name := "ProjectJson"
  blank := {}
  fields := [
    .needed "targets" (Decoder.list TargetRecord.record.decode) fun targets p => { p with targets }]

namespace Project

/-- A project with the warnings its blocks gave. -/
def ofRecord (config : Config) (p : ProjectRecord) : Project × List Warning :=
  ({ config, targets := p.targets.map TargetRecord.toTarget },
    p.targets.flatMap TargetRecord.warnings)

def load (config : Config) (text : String) : Except Json.Error (Project × List Warning) := do
  let p ← Json.decodeText ProjectRecord.record.decode text
  return ofRecord config p

/-- A text is loaded if working out some part of the project gives a value. -/
theorem exists_loaded {config : Config} {text : String} {f : Project → α} {a : α}
    (h : ((load config text).toOption.map Prod.fst).map f = some a) :
    ∃ p warnings, load config text = .ok (p, warnings) ∧ f p = a := by
  rw [Option.map_map] at h
  obtain ⟨⟨p, warnings⟩, hload, hf⟩ := Option.map_eq_some_iff.mp h
  cases hresult : load config text with
  | error e =>
    rw [hresult] at hload
    cases hload
  | ok loaded =>
    rw [hresult] at hload
    cases hload
    exact ⟨p, warnings, rfl, hf⟩

/-- How a project that cannot be loaded is reported. -/
def loadErrorMessage (e : Json.Error) : String := "could not decode project.json: " ++ e.message

end Project

end BlockStage
