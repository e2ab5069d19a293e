import BlockStage.Project.Load
import BlockStage.Proofs.JsonReadBack
import BlockStage.Proofs.WrittenBlocks

/-!
Loading loses and invents nothing. A loaded project has one target for each target of the text, in
order. What is said of a target in the text is what the target has, down to the parts of its blocks
and costumes, and a default stands for what is not said. Of the entries among its blocks those that
are no blocks are left out; they must be lists, or else nothing is loaded.
-/

namespace BlockStage

open Json (Node Decoder Fault Record Given Written lastMember? bind_eq_ok_iff)
open Json.Node (IsFloat IsSize ListOf)

namespace Json

/-- The members of a part that is an object. -/
def partMembers : Option Node → List (Except Fault String × Node)
  | some (.object members _) => members
  | _ => []

/-- A list that is closed. -/
def Node.IsArray (node : Node) : Prop := ∃ items, node = .list items none

end Json

/-! ## Entries -/

/-- An entry that is loaded is a block, or else a list that is left out. -/
theorem decodeEntry_eq_ok {depth : Nat} {node : Node} {entry : Option Block}
    (h : decodeEntry depth node = .ok entry) :
    (∃ b, (∀ c, Block.WrittenIn node c ↔ c = b) ∧ entry = some b) ∨
      (node.IsArray ∧ (∀ b, ¬ Block.WrittenIn node b) ∧ entry = none) := by
  simp only [decodeEntry, bind_eq_ok_iff] at h
  obtain ⟨_, hcheck, h⟩ := h
  have hreads (b : Block) := Block.reads depth node b hcheck
  cases hblock : Block.decode depth node with
  | ok b =>
    rw [hblock] at h
    refine .inl ⟨b, fun c => ?_, by simpa [pure, Except.pure, eq_comm] using h⟩
    rw [← hreads, hblock, Except.ok.injEq, eq_comm]
  | error e =>
    have hnot (b : Block) : ¬ Block.WrittenIn node b := by
      rw [← hreads, hblock]
      nofun
    rw [hblock] at h
    cases node with
    | list items break? =>
      obtain ⟨_, _, _, rfl⟩ := (Node.check_list_eq_ok_iff _ _ _).mp hcheck
      exact .inr ⟨⟨items, rfl⟩, hnot, by simpa [pure, Except.pure, eq_comm] using h⟩
    | _ => simp [throw, throwThe, MonadExceptOf.throw] at h

theorem getElem?_blocksOfEntries (entries : Named (Option Block)) (key : String) :
    (blocksOfEntries entries)[key]? = entries[key]?.join := by
  rw [blocksOfEntries, Std.ExtTreeMap.getElem?_filterMap']
  cases entries[key]? <;> rfl

/-! ## Costumes -/

namespace Costume

/-- The parts of a costume, in the order in which a list has them. -/
def parts : List String := ["bitmapResolution", "rotationCenterX", "rotationCenterY"]

/-- The size of the costume that is written in a node: twice its centre, at a resolution of one at
least. -/
def WrittenIn (node : Node) (size : Vec Float) : Prop :=
  ∃ resolution x y, Written IsFloat 1 (node.part? parts "bitmapResolution") resolution ∧
    Written IsFloat 0 (node.part? parts "rotationCenterX") x ∧
    Written IsFloat 0 (node.part? parts "rotationCenterY") y ∧
    ((resolution < 1 ∧ size = ⟨x * 2 / 1, y * 2 / 1⟩) ∨
      (¬ resolution < 1 ∧ size = ⟨x * 2 / resolution, y * 2 / resolution⟩))

theorem writtenIn_of_decode {depth : Nat} {node : Node} {c : CostumeRecord}
    (h : CostumeRecord.record.decode depth node = .ok c) : WrittenIn node c.size := by
  have hresolution : Given .float false 1 (depth - 1) (node.part? parts "bitmapResolution")
      c.resolution :=
    Record.decode_part (·.resolution) (by constructor <;> simp [CostumeRecord.record]) h
  have hx : Given .float false 0 (depth - 1) (node.part? parts "rotationCenterX") c.centerX :=
    Record.decode_part (·.centerX) (by constructor <;> simp [CostumeRecord.record]) h
  have hy : Given .float false 0 (depth - 1) (node.part? parts "rotationCenterY") c.centerY :=
    Record.decode_part (·.centerY) (by constructor <;> simp [CostumeRecord.record]) h
  refine ⟨_, _, _, hresolution.written fun _ => Decoder.float_eq_ok_iff.mp,
    hx.written fun _ => Decoder.float_eq_ok_iff.mp,
    hy.written fun _ => Decoder.float_eq_ok_iff.mp, ?_⟩
  by_cases hless : c.resolution < 1
  · exact .inl ⟨hless, by rw [CostumeRecord.size, if_pos hless]; rfl⟩
  · exact .inr ⟨hless, by rw [CostumeRecord.size, if_neg hless]; rfl⟩

end Costume

/-! ## Targets -/

namespace Target

/-- The parts of a target, in the order in which a list has them. -/
def parts : List String :=
  ["id", "isStage", "name", "blocks", "currentCostume", "costumes", "x", "y", "size", "direction"]

/-- The part of a target under a name. -/
abbrev part? (name : String) (node : Node) : Option Node := node.part? parts name

/-- The entries among the blocks of a target. -/
def entries (node : Node) : List (Except Fault String × Node) :=
  Json.partMembers (part? "blocks" node)

/-- The target that is written in a node. -/
structure WrittenIn (node : Node) (t : Target) : Prop where
  /-- No part is written twice. -/
  shaped : node.Shaped parts
  name : part? "name" node = some (.text (.ok t.name))
  isStage : part? "isStage" node = some (.bool t.isStage)
  id : part? "id" node = some (.text (.ok t.id)) ∨
    (part? "id" node = none ∨ part? "id" node = some .null) ∧ t.id = t.name
  x : Written IsFloat 0 (part? "x" node) t.state.x
  y : Written IsFloat 0 (part? "y" node) t.state.y
  size : Written IsFloat 100 (part? "size" node) t.state.size
  direction : Written IsFloat 90 (part? "direction" node) t.state.direction
  costume : Written IsSize 0 (part? "currentCostume" node) t.state.costume
  /-- There is one costume for each costume of the text, in order. -/
  costumes : Written (ListOf Costume.WrittenIn) [] (part? "costumes" node) t.costumes
  entries : ∀ entry ∈ entries node, (∃ b, Block.WrittenIn entry.2 b) ∨ entry.2.IsArray
  /-- Of a repeated key the last entry counts. -/
  block?_eq_some_iff (key : String) (b : Block) : t.blocks.block? key = some b ↔
    ∃ entry, lastMember? key (Target.entries node) = some entry ∧ Block.WrittenIn entry b
  /-- An entry is left out if it is a list and no block. -/
  block?_eq_none_iff (key : String) (entry : Node) :
    lastMember? key (Target.entries node) = some entry →
      (t.blocks.block? key = none ↔ entry.IsArray ∧ ∀ b, ¬ Block.WrittenIn entry b)

end Target

namespace TargetRecord

open Target (parts part?)

/-- What the parts of a target decide, one by one. -/
structure DecodedFrom (depth : Nat) (node : Node) (t : TargetRecord) : Prop where
  shaped : node.Shaped parts
  id : Given (Decoder.optional .string) false none depth (part? "id" node) t.id
  isStage : Given .boolean true false depth (part? "isStage" node) t.isStage
  name : Given .string true "" depth (part? "name" node) t.name
  blocks : Given (Block.decodeNamed decodeEntry) false ∅ depth (part? "blocks" node) t.blocks
  costume : Given .size false 0 depth (part? "currentCostume" node) t.state.costume
  costumes : Given (Decoder.list CostumeRecord.record.decode) false [] depth
    (part? "costumes" node) t.costumes
  x : Given .float false 0 depth (part? "x" node) t.state.x
  y : Given .float false 0 depth (part? "y" node) t.state.y
  size : Given .float false 100 depth (part? "size" node) t.state.size
  direction : Given .float false 90 depth (part? "direction" node) t.state.direction

theorem decodedFrom {depth : Nat} {node : Node} {t : TargetRecord}
    (h : record.decode depth node = .ok t) : t.DecodedFrom (depth - 1) node where
  shaped := Record.shaped_of_decode h
  id := Record.decode_part (·.id) (by constructor <;> simp [record]) h
  isStage := Record.decode_part (·.isStage) (by constructor <;> simp [record]) h
  name := Record.decode_part (·.name) (by constructor <;> simp [record]) h
  blocks := Record.decode_part (·.blocks) (by constructor <;> simp [record]) h
  costume := Record.decode_part (·.state.costume) (by constructor <;> simp [record]) h
  costumes := Record.decode_part (·.costumes) (by constructor <;> simp [record]) h
  x := Record.decode_part (·.state.x) (by constructor <;> simp [record]) h
  y := Record.decode_part (·.state.y) (by constructor <;> simp [record]) h
  size := Record.decode_part (·.state.size) (by constructor <;> simp [record]) h
  direction := Record.decode_part (·.state.direction) (by constructor <;> simp [record]) h

variable {depth : Nat} {node : Node} {t : TargetRecord}

/-- The entries of a target are decoded one by one, and of a repeated key the last one counts. -/
theorem DecodedFrom.entries (h : t.DecodedFrom depth node) :
    (∀ member ∈ Target.entries node, ∃ entry, decodeEntry (depth - 1) member.2 = .ok entry) ∧
    ∀ key, Option.Rel (fun node entry => decodeEntry (depth - 1) node = .ok entry)
      (lastMember? key (Target.entries node)) t.blocks[key]? := by
  rw [Target.entries]
  rcases h.blocks.cases with ⟨hpart, -, hempty⟩ | ⟨blocks, hpart, hblocks⟩
  · simp [hpart, Json.partMembers, lastMember?, hempty]
  · obtain ⟨pairs, hpairs, hnamed⟩ := bind_eq_ok_iff.mp hblocks
    obtain ⟨members, rfl, hmembers⟩ := Json.Decoder.object_eq_ok hpairs
    have hmap : t.blocks = .ofList pairs := by simpa [pure, Except.pure, eq_comm] using hnamed
    rw [hpart, hmap]
    constructor
    · intro member hmember
      obtain ⟨pair, -, -, hnode⟩ := Json.exists_rel_of_mem hmembers hmember
      exact ⟨pair.2, hnode⟩
    · exact Json.rel_lastMember?_ofList hmembers

/-- What a key without an entry, with a block and with a list stands for. -/
theorem DecodedFrom.block?_cases (h : t.DecodedFrom depth node) (key : String) :
    (lastMember? key (Target.entries node) = none ∧ t.toTarget.blocks.block? key = none) ∨
    ∃ entry, lastMember? key (Target.entries node) = some entry ∧
      ((∃ b, (∀ c, Block.WrittenIn entry c ↔ c = b) ∧ t.toTarget.blocks.block? key = some b) ∨
        (entry.IsArray ∧ (∀ b, ¬ Block.WrittenIn entry b) ∧
          t.toTarget.blocks.block? key = none)) := by
  have hblock : t.toTarget.blocks.block? key = t.blocks[key]?.join :=
    getElem?_blocksOfEntries t.blocks key
  have hrel := h.entries.2 key
  rw [hblock]
  generalize lastMember? key (Target.entries node) = last? at hrel ⊢
  generalize t.blocks[key]? = kept? at hrel ⊢
  cases hrel with
  | none => exact .inl ⟨rfl, rfl⟩
  | @some entry kept hkept =>
    refine .inr ⟨entry, rfl, ?_⟩
    rcases decodeEntry_eq_ok hkept with ⟨b, hb, rfl⟩ | ⟨harray, hnot, rfl⟩
    · exact .inl ⟨b, hb, rfl⟩
    · exact .inr ⟨harray, hnot, rfl⟩

theorem DecodedFrom.costumes_written (h : t.DecodedFrom depth node) :
    Written (ListOf Costume.WrittenIn) [] (part? "costumes" node) t.toTarget.costumes := by
  rcases h.costumes.cases with ⟨hpart, -, hnone⟩ | ⟨costumes, hpart, hcostumes⟩
  · rw [hpart, toTarget, hnone]
    rfl
  · obtain ⟨items, rfl, hitems⟩ := Json.Decoder.list_eq_ok hcostumes
    rw [hpart]
    exact ⟨items, rfl, List.forall₂_map_right_iff.mpr
      (hitems.imp fun _ _ => Costume.writtenIn_of_decode)⟩

theorem DecodedFrom.id_eq (h : t.DecodedFrom depth node) :
    part? "id" node = some (.text (.ok (t.id.getD t.name))) ∨
      (part? "id" node = none ∨ part? "id" node = some .null) ∧ t.id.getD t.name = t.name := by
  rcases h.id.cases with ⟨hpart, -, hnone⟩ | ⟨id, hpart, hid⟩
  · exact .inr ⟨.inl hpart, by simp [hnone]⟩
  · rcases Json.Decoder.optional_eq_ok_iff.mp hid with ⟨rfl, hnone⟩ | ⟨-, s, hs, hsome⟩
    · exact .inr ⟨.inr hpart, by simp [hnone]⟩
    · rw [hpart, Json.Decoder.string_eq_ok_iff.mp hs, hsome]
      exact .inl rfl

theorem DecodedFrom.writtenIn (h : t.DecodedFrom depth node) : t.toTarget.WrittenIn node where
  shaped := h.shaped
  name := by
    obtain ⟨part, hpart, hname⟩ := h.name.exists_part
    rw [hpart, Json.Decoder.string_eq_ok_iff.mp hname]
    rfl
  isStage := by
    obtain ⟨part, hpart, hstage⟩ := h.isStage.exists_part
    rw [hpart, Json.Decoder.boolean_eq_ok_iff.mp hstage]
    rfl
  id := h.id_eq
  x := h.x.written fun _ => Decoder.float_eq_ok_iff.mp
  y := h.y.written fun _ => Decoder.float_eq_ok_iff.mp
  size := h.size.written fun _ => Decoder.float_eq_ok_iff.mp
  direction := h.direction.written fun _ => Decoder.float_eq_ok_iff.mp
  costume := h.costume.written fun _ => Decoder.size_eq_ok_iff.mp
  costumes := h.costumes_written
  entries := by
    intro member hmember
    obtain ⟨entry, hentry⟩ := h.entries.1 member hmember
    rcases decodeEntry_eq_ok hentry with ⟨b, hb, -⟩ | ⟨harray, -, -⟩
    · exact .inl ⟨b, (hb b).mpr rfl⟩
    · exact .inr harray
  block?_eq_some_iff := by
    intro key b
    rcases h.block?_cases key with
      ⟨hlast, hblock⟩ | ⟨entry, hlast, ⟨b', hb', hblock⟩ | ⟨-, hnot, hblock⟩⟩
    · simp [hlast, hblock]
    · simp [hlast, hblock, hb', eq_comm]
    · simp [hlast, hblock, hnot]
  block?_eq_none_iff := by
    intro key entry hentry
    rcases h.block?_cases key with
      ⟨hlast, hblock⟩ | ⟨entry', hlast, ⟨b, hb, hblock⟩ | ⟨harray, hnot, hblock⟩⟩
    · simp [hlast] at hentry
    · obtain rfl : entry' = entry := by simpa [hlast] using hentry
      simp only [hblock, reduceCtorEq, false_iff, not_and, not_forall, not_not]
      exact fun _ => ⟨b, (hb b).mpr rfl⟩
    · obtain rfl : entry' = entry := by simpa [hlast] using hentry
      exact iff_of_true hblock ⟨harray, hnot⟩

end TargetRecord

/-! ## Projects -/

namespace Project

/-- Something stands as the list of the targets of a text, maybe beside others. -/
def HasTargets (text : String) (targets : Node) : Prop :=
  (Json.Source.ofText text).root.HasPart ["targets"] "targets" targets

/-- Something stands as an entry among the blocks of a target of the text. -/
def HasEntry (text : String) (entry : Node) : Prop :=
  ∃ targets target blocks key, HasTargets text (.list targets none) ∧ target ∈ targets ∧
    target.HasPart Target.parts "blocks" blocks ∧ (key, entry) ∈ Json.partMembers (some blocks)

theorem load_eq_ok {config : Config} {text : String} {p : Project} {warnings : List Warning}
    (h : load config text = .ok (p, warnings)) :
    p.config = config ∧ ∃ nodes,
      (∀ targets, HasTargets text targets ↔ targets = .list nodes none) ∧
      List.Forall₂ Target.WrittenIn nodes p.targets := by
  simp only [load, Json.decodeText, bind_eq_ok_iff] at h
  obtain ⟨r, ⟨r', hr, hrest⟩, hp⟩ := h
  split at hrest
  · obtain rfl : r' = r := by simpa [pure, Except.pure] using hrest
    obtain ⟨rfl, -⟩ : { config, targets := r'.targets.map TargetRecord.toTarget } = p ∧ _ := by
      simpa [pure, Except.pure, ofRecord] using hp
    have htargets : Given (Decoder.list TargetRecord.record.decode) true [] (Json.depthLimit - 1)
        ((Json.Source.ofText text).root.part? ["targets"] "targets") r'.targets :=
      Record.decode_part (·.targets) (by constructor <;> simp [ProjectRecord.record]) hr
    obtain ⟨part, hpart, hlist⟩ := htargets.exists_part
    obtain ⟨nodes, rfl, hnodes⟩ := Json.Decoder.list_eq_ok hlist
    refine ⟨rfl, nodes, fun targets => ?_, List.forall₂_map_right_iff.mpr (hnodes.imp ?_)⟩
    · have hshaped : (Json.Source.ofText text).root.Shaped ["targets"] :=
        Record.shaped_of_decode hr
      rw [HasTargets, hshaped.hasPart_iff (by simp), hpart, Option.some.injEq, eq_comm]
    · intro node t ht
      exact (TargetRecord.decodedFrom ht).writtenIn
  · simp [throw, throwThe, MonadExceptOf.throw] at hrest

/-- **What is loaded is what is written: the targets in order, and of each all blocks among its
entries. One entry that is neither a block nor a list, and nothing is loaded.** -/
theorem load_faithful (config : Config) (text : String) :
    (∀ p warnings, load config text = .ok (p, warnings) →
      p.config = config ∧ ∃ nodes,
        (∀ targets, HasTargets text targets ↔ targets = .list nodes none) ∧
        List.Forall₂ Target.WrittenIn nodes p.targets) ∧
    ∀ entry, HasEntry text entry → ¬((∃ b, Block.WrittenIn entry b) ∨ entry.IsArray) →
      ∃ e, load config text = .error e := by
  refine ⟨fun p warnings h => load_eq_ok h, ?_⟩
  rintro entry ⟨targets, target, blocks, key, htargets, htarget, hblocks, hentry⟩ hneither
  cases hload : load config text with
  | error e => exact ⟨e, rfl⟩
  | ok loaded =>
    obtain ⟨-, nodes, hnodes, hwritten⟩ := load_eq_ok hload
    cases (hnodes _).mp htargets
    obtain ⟨t, -, ht⟩ := Json.exists_rel_of_mem hwritten htarget
    have hpart : Target.part? "blocks" target = some blocks :=
      (ht.shaped.hasPart_iff (by simp [Target.parts])).mp hblocks
    rw [← hpart] at hentry
    exact absurd (ht.entries _ hentry) hneither

/-- A sprite with the given entries among its blocks, and with a costume of double resolution. -/
def catTarget (entries : List (String × Json)) : Json :=
  .object [
    ("isStage", .bool false), ("name", .text "Cat"), ("blocks", .object entries),
    ("costumes", .list [.object [
      ("bitmapResolution", .integer 2), ("rotationCenterX", .integer 10),
      ("rotationCenterY", .integer 20)]])]

def catProject (entries : List (String × Json)) : Json :=
  .object [("targets", .list [catTarget entries])]

/-- A block with a value in its input and a variable in its field. -/
def setVariable : Json :=
  .object [
    ("opcode", .text "data_setvariableto"), ("next", .text "b"), ("parent", .null),
    ("inputs", .object [("VALUE", .list [.integer 1, .list [.integer 10, .text "7"]])]),
    ("fields", .object [("VARIABLE", .list [.text "score", .text "id"])]),
    ("mutation", .object [("proccode", .text "go"), ("warp", .text "true")]),
    ("topLevel", .bool true)]

/-- Two keys, each with a block and with a list. -/
def repeatedEntries : List (String × Json) :=
  let list : Json := .list [.integer 12]
  [("a", list), ("a", setVariable), ("b", setVariable), ("b", list)]

theorem hasTargets_catProject {text : String} {entries : List (String × Json)}
    (hroot : (Json.Source.ofText text).root = (catProject entries).tree) :
    HasTargets text (.list [(catTarget entries).tree] none) := by
  rw [HasTargets, hroot]
  simp [Node.HasPart, catProject, Json.tree, Json.itemTrees, Json.memberTrees]

theorem hasEntry_catProject {text key : String} {value : Json}
    (hroot : (Json.Source.ofText text).root = (catProject [(key, value)]).tree) :
    HasEntry text value.tree := by
  refine ⟨_, (catTarget [(key, value)]).tree, (Json.object [(key, value)]).tree, .ok key,
    hasTargets_catProject hroot, List.mem_singleton_self _, ?_, ?_⟩
  · simp [Node.HasPart, catTarget, Json.tree, Json.memberTrees]
  · simp [Json.partMembers, Json.tree, Json.memberTrees]

theorem load_faithful_catProject :
    (∃ p warnings t, load {} (catProject repeatedEntries).compact = .ok (p, warnings) ∧
      p.targets = [t] ∧ t.id = "Cat" ∧ t.costumes = [⟨10, 20⟩] ∧
      t.blocks.block? "a" = some {
        opcode := "data_setvariableto", next := some "b"
        inputs := .ofList [("VALUE", Input.value (.text "7"))]
        fields := .ofList [("VARIABLE", Field.mk (.text "score") (some "id"))]
        mutation := some { code := some "go", warp := some (.text "true") }
        topLevel := true } ∧
      t.blocks.block? "b" = none) ∧
    ∃ e, load {} (catProject [("a", .integer 12)]).compact = .error e := by
  have hread (entries) (h : Json.ExactMembers entries) :
      Json.Source.ofText (catProject entries).compact = ⟨(catProject entries).tree, []⟩ := by
    apply Json.ofText_compact
    simpa [catProject, catTarget, Json.Exact, Json.ExactItems, Json.ExactMembers, Json.Fits] using h
  have hrepeated := hread repeatedEntries (by
    simp [repeatedEntries, setVariable, Json.ExactMembers, Json.ExactItems, Json.Exact, Json.Fits])
  have hnumber := hread [("a", .integer 12)] (by
    simp [Json.ExactMembers, Json.Exact, Json.Fits])
  -- the texts stay variables, so that nothing but `hread` tells how they are read
  generalize (catProject repeatedEntries).compact = repeated at hrepeated ⊢
  generalize (catProject [("a", .integer 12)]).compact = number at hnumber ⊢
  constructor
  · obtain ⟨p, warnings, hload⟩ : ∃ p warnings, load {} repeated = .ok (p, warnings) := by
      simp only [load, Json.decodeText, hrepeated]
      exact ⟨_, _, rfl⟩
    obtain ⟨-, nodes, hnodes, hwritten⟩ := (load_faithful {} repeated).1 p warnings hload
    cases (hnodes _).mp (hasTargets_catProject (by rw [hrepeated]))
    obtain ⟨t, _, ht, hnil, hp⟩ := List.forall₂_cons_left_iff.mp hwritten
    cases hnil
    have hname : t.name = "Cat" := by
      have hpart : some (Node.text (.ok "Cat")) = some (.text (.ok t.name)) := ht.name
      simpa [eq_comm] using hpart
    refine ⟨p, warnings, t, hload, hp, ?_, ?_, ?_, ?_⟩
    · rcases ht.id with hid | ⟨-, hid⟩
      · cases hid
      · exact hid.trans hname
    · obtain ⟨items, hitems, hsizes⟩ := ht.costumes
      cases hitems
      obtain ⟨size, _, hsize, hnil, hcostumes⟩ := List.forall₂_cons_left_iff.mp hsizes
      cases hnil
      obtain ⟨resolution, x, y, hresolution, hx, hy, hless | ⟨-, hsize⟩⟩ := hsize
      · cases hresolution
        exact absurd hless.1 (by decide)
      · cases hresolution
        cases hx
        cases hy
        rw [hcostumes, hsize]
        rfl
    · exact (ht.block?_eq_some_iff "a" _).mpr ⟨_, rfl, (Block.reads Json.depthLimit _ _ rfl).mp rfl⟩
    · refine (ht.block?_eq_none_iff "b" _ rfl).mpr ⟨⟨_, rfl⟩, fun b hb => ?_⟩
      cases hb.opcode
  · refine (load_faithful {} number).2 _ (hasEntry_catProject (by rw [hnumber])) ?_
    rintro (⟨b, hb⟩ | ⟨items, hitems⟩)
    · cases hb.opcode
    · cases hitems

end Project

end BlockStage
