import BlockStage.Proofs.InputDecoding
import BlockStage.Proofs.WrittenParts

/-!
Which JSON values are blocks, and what each part of one stands for. A value is decoded as a block
exactly if it is written as one, that is, if it has the parts of a block, each at most once and each
written as it should be, with a default for what may be left out.
-/

namespace BlockStage

open Json (Node Decoder Given Record Written)
open Json.Node (IsFloat OrNull ListOf NamedBy)
open Signature (IsText)

def IsFlag (node : Node) (b : Bool) : Prop := node = .bool b

theorem text_reads : Decoder.string.Reads IsText := fun _ _ _ _ => Decoder.string_eq_ok_iff

theorem flag_reads : Decoder.boolean.Reads IsFlag := fun _ _ _ _ => Decoder.boolean_eq_ok_iff

theorem Value.literal_reads : Decoder.Reads Value.decode Value.IsLiteral :=
  fun depth node v _ => Value.decode_eq_ok_iff depth node v

/-! ## Inputs and fields -/

def Input.WrittenIn (node : Node) (input : Input) : Prop :=
  ∃ items, node = .list items none ∧ Input.WrittenBy items input

theorem Input.reads : Decoder.Reads Input.decode Input.WrittenIn := by
  intro depth node input hcheck
  rw [Input.decode_eq_ok_iff, and_iff_right hcheck, Input.WrittenIn]

namespace Field

/-- What a list of plain values and nulls makes a field. In first place is its value, which counts
as zero if it is not there; in second place is the id of what the field names, mostly a text. -/
structure HeldBy (items : List Node) (f : Field) : Prop where
  plain : ∀ item ∈ items, item = .null ∨ ∃ v, Value.IsLiteral item v
  value : ∃ v?, Written (OrNull Value.IsLiteral) none items[0]? v? ∧ f.value = v?.getD (.integer 0)
  id : ∃ v?, Written (OrNull Value.IsLiteral) none items[1]? v? ∧ f.id = v?.map Value.display
  textId (s : String) (h : items[1]? = some (.text (.ok s))) : f.id = some s

def WrittenIn (node : Node) (f : Field) : Prop :=
  ∃ items, node = .list items none ∧ HeldBy items f

theorem written_getElem? {items : List Node} {parts : List (Option Value)}
    (h : List.Forall₂ (OrNull Value.IsLiteral) items parts) (i : Nat) :
    Written (OrNull Value.IsLiteral) none items[i]? parts[i]?.join := by
  induction h generalizing i with
  | nil => rfl
  | cons hpart _ ih =>
    cases i with
    | zero => exact hpart
    | succ i => exact ih i

theorem written_unique {part : Option Node} {v? w? : Option Value}
    (hv : Written (OrNull Value.IsLiteral) none part v?)
    (hw : Written (OrNull Value.IsLiteral) none part w?) : v? = w? := by
  cases part with
  | none => exact hv.trans hw.symm
  | some node =>
    cases hv with
    | null => cases hw with
      | null => rfl
      | given hnode => exact absurd rfl hnode
    | given hnode hv => cases hw with
      | null => exact absurd rfl hnode
      | given _ hw => rw [Option.some.inj (hv.ofNode?_eq.symm.trans hw.ofNode?_eq)]

theorem heldBy_iff {items : List Node} {f : Field} :
    HeldBy items f ↔ ∃ parts, List.Forall₂ (OrNull Value.IsLiteral) items parts ∧
      f = ofParts parts := by
  constructor
  · rintro ⟨hplain, ⟨v?, hv, hvalue⟩, ⟨id?, hid?, hid⟩, -⟩
    have hparts : ∀ item ∈ items, ∃ v?, OrNull Value.IsLiteral item v? := by
      intro item hitem
      rcases hplain item hitem with rfl | ⟨v, hv⟩
      · exact ⟨none, .null⟩
      · exact ⟨some v, .given (by rintro rfl; cases hv) hv⟩
    obtain ⟨parts, hparts⟩ := Json.exists_forall₂_of_forall_mem hparts
    refine ⟨parts, hparts, ?_⟩
    obtain ⟨value, id⟩ := f
    have hfirst := written_unique hv (written_getElem? hparts 0)
    have hsecond := written_unique hid? (written_getElem? hparts 1)
    simp only at hvalue hid
    rw [hvalue, hid, hfirst, hsecond, ofParts, List.head?_eq_getElem?]
    rfl
  · rintro ⟨parts, hparts, rfl⟩
    refine ⟨fun item hitem => ?_, ⟨_, written_getElem? hparts 0, ?_⟩,
      ⟨_, written_getElem? hparts 1, rfl⟩, fun s hs => ?_⟩
    · obtain ⟨v?, -, hv⟩ := Json.exists_rel_of_mem hparts hitem
      cases hv with
      | null => exact .inl rfl
      | given _ hv => exact .inr ⟨_, hv⟩
    · rw [ofParts, List.head?_eq_getElem?]
      rfl
    · have htext : Written (OrNull Value.IsLiteral) none items[1]? (some (.text s)) := by
        rw [hs]
        exact .given (by simp) (.text s)
      rw [ofParts, written_unique (written_getElem? hparts 1) htext]
      rfl

theorem reads : Decoder.Reads Field.decode WrittenIn := by
  intro depth node f hcheck
  have hparts := Value.literal_reads.optional.list
  rw [decode, Json.bind_eq_ok_iff]
  constructor
  · rintro ⟨parts, hdecode, hf⟩
    cases hf
    obtain ⟨items, rfl, hitems⟩ := (hparts depth node parts hcheck).mp hdecode
    exact ⟨items, rfl, heldBy_iff.mpr ⟨parts, hitems, rfl⟩⟩
  · rintro ⟨items, rfl, hheld⟩
    obtain ⟨parts, hitems, rfl⟩ := heldBy_iff.mp hheld
    exact ⟨parts, (hparts depth _ parts hcheck).mpr ⟨items, rfl, hitems⟩, rfl⟩

end Field

/-! ## Mutations -/

namespace Mutation

/-- The parts of a mutation, in the order in which a list has them. -/
def parts : List String :=
  ["proccode", "argumentids", "argumentnames", "argumentdefaults", "warp"]

/-- The mutation that is written in a node. -/
@[mk_iff]
structure WrittenIn (node : Node) (m : Mutation) : Prop where
  shaped : node.Shaped parts
  code : Written (OrNull IsText) none (node.part? parts "proccode") m.code
  argumentIds : Written (OrNull IsText) none (node.part? parts "argumentids") m.argumentIds
  argumentNames : Written (OrNull IsText) none (node.part? parts "argumentnames") m.argumentNames
  argumentDefaults :
    Written (OrNull IsText) none (node.part? parts "argumentdefaults") m.argumentDefaults
  warp : Written (OrNull Value.IsLiteral) none (node.part? parts "warp") m.warp

/-- What the parts of a mutation decide, one by one. -/
@[mk_iff]
structure DecodedFrom (depth : Nat) (node : Node) (m : Mutation) : Prop where
  code : Given (Decoder.optional .string) false none depth (node.part? parts "proccode") m.code
  argumentIds : Given (Decoder.optional .string) false none depth
    (node.part? parts "argumentids") m.argumentIds
  argumentNames : Given (Decoder.optional .string) false none depth
    (node.part? parts "argumentnames") m.argumentNames
  argumentDefaults : Given (Decoder.optional .string) false none depth
    (node.part? parts "argumentdefaults") m.argumentDefaults
  warp : Given (Decoder.optional Value.decode) false none depth (node.part? parts "warp") m.warp

variable {depth : Nat} {node : Node} {m : Mutation}

theorem decodedFrom (h : record.decode depth node = .ok m) : m.DecodedFrom (depth - 1) node where
  code := Record.decode_part (·.code) (by constructor <;> simp [record]) h
  argumentIds := Record.decode_part (·.argumentIds) (by constructor <;> simp [record]) h
  argumentNames := Record.decode_part (·.argumentNames) (by constructor <;> simp [record]) h
  argumentDefaults := Record.decode_part (·.argumentDefaults) (by constructor <;> simp [record]) h
  warp := Record.decode_part (·.warp) (by constructor <;> simp [record]) h

theorem DecodedFrom.unique {m n : Mutation} (hm : m.DecodedFrom depth node)
    (hn : n.DecodedFrom depth node) : m = n := by
  obtain ⟨code, argumentIds, argumentNames, argumentDefaults, warp⟩ := m
  obtain ⟨code', argumentIds', argumentNames', argumentDefaults', warp'⟩ := n
  obtain rfl : code = code' := hm.code.unique hn.code
  obtain rfl : argumentIds = argumentIds' := hm.argumentIds.unique hn.argumentIds
  obtain rfl : argumentNames = argumentNames' := hm.argumentNames.unique hn.argumentNames
  obtain rfl : argumentDefaults = argumentDefaults' :=
    hm.argumentDefaults.unique hn.argumentDefaults
  obtain rfl : warp = warp' := hm.warp.unique hn.warp
  rfl

theorem writtenIn_iff_decodedFrom (hcheck : node.check depth = .ok ()) :
    WrittenIn node m ↔ node.Shaped parts ∧ m.DecodedFrom (depth - 1) node := by
  have hpart (name : String) (part : Node) (h : node.part? parts name = some part) :
      part.check (depth - 1) = .ok () := Node.check_part hcheck h
  simp only [writtenIn_iff, decodedFrom_iff, text_reads.optional.given_iff (hpart _),
    Value.literal_reads.optional.given_iff (hpart _)]

/-- A value is decoded as a mutation exactly if it is written as one. -/
theorem reads : Decoder.Reads Mutation.decode WrittenIn := by
  intro depth node m hcheck
  rw [writtenIn_iff_decodedFrom hcheck, decode]
  constructor
  · exact fun h => ⟨Record.shaped_of_decode h, decodedFrom h⟩
  · rintro ⟨hshaped, hm⟩
    have hfill : ∀ f ∈ record.fields, f.Fillable (depth - 1) (node.part? parts f.name) := by
      simp only [record, List.forall_mem_cons]
      exact ⟨hm.code.defaulted_fillable _, hm.argumentIds.defaulted_fillable _,
        hm.argumentNames.defaulted_fillable _, hm.argumentDefaults.defaulted_fillable _,
        hm.warp.defaulted_fillable _, nofun⟩
    obtain ⟨n, hn⟩ := Record.exists_decode (r := record) (by decide) hcheck hshaped hfill
    rw [hn, (decodedFrom hn).unique hm]

end Mutation

/-! ## Blocks -/

namespace Block

/-- The parts of a block, in the order in which a list has them. -/
def parts : List String :=
  ["opcode", "next", "parent", "inputs", "fields", "mutation", "shadow", "topLevel"]

/-- The block that is written in a node. -/
@[mk_iff]
structure WrittenIn (node : Node) (b : Block) : Prop where
  shaped : node.Shaped parts
  opcode : node.part? parts "opcode" = some (.text (.ok b.opcode))
  next : Written (OrNull IsText) none (node.part? parts "next") b.next
  parent : Written (OrNull IsText) none (node.part? parts "parent") b.parent
  inputs : Written (NamedBy Input.WrittenIn) ∅ (node.part? parts "inputs") b.inputs
  fields : Written (NamedBy Field.WrittenIn) ∅ (node.part? parts "fields") b.fields
  mutation : Written (OrNull Mutation.WrittenIn) none (node.part? parts "mutation") b.mutation
  shadow : Written IsFlag false (node.part? parts "shadow") b.shadow
  topLevel : Written IsFlag false (node.part? parts "topLevel") b.topLevel

/-- What the parts of a block decide, one by one. -/
@[mk_iff]
structure DecodedFrom (depth : Nat) (node : Node) (b : Block) : Prop where
  opcode : Given .string true "" depth (node.part? parts "opcode") b.opcode
  next : Given (Decoder.optional .string) false none depth (node.part? parts "next") b.next
  parent : Given (Decoder.optional .string) false none depth (node.part? parts "parent") b.parent
  inputs : Given (decodeNamed Input.decode) false ∅ depth (node.part? parts "inputs") b.inputs
  fields : Given (decodeNamed Field.decode) false ∅ depth (node.part? parts "fields") b.fields
  mutation : Given (Decoder.optional Mutation.decode) false none depth
    (node.part? parts "mutation") b.mutation
  shadow : Given .boolean false false depth (node.part? parts "shadow") b.shadow
  topLevel : Given .boolean false false depth (node.part? parts "topLevel") b.topLevel

variable {depth : Nat} {node : Node} {b : Block}

theorem decodedFrom (h : record.decode depth node = .ok b) : b.DecodedFrom (depth - 1) node where
  opcode := Record.decode_part (·.opcode) (by constructor <;> simp [record]) h
  next := Record.decode_part (·.next) (by constructor <;> simp [record]) h
  parent := Record.decode_part (·.parent) (by constructor <;> simp [record]) h
  inputs := Record.decode_part (·.inputs) (by constructor <;> simp [record]) h
  fields := Record.decode_part (·.fields) (by constructor <;> simp [record]) h
  mutation := Record.decode_part (·.mutation) (by constructor <;> simp [record]) h
  shadow := Record.decode_part (·.shadow) (by constructor <;> simp [record]) h
  topLevel := Record.decode_part (·.topLevel) (by constructor <;> simp [record]) h

theorem DecodedFrom.unique {b c : Block} (hb : b.DecodedFrom depth node)
    (hc : c.DecodedFrom depth node) : b = c := by
  obtain ⟨opcode, next, parent, inputs, fields, mutation, shadow, topLevel⟩ := b
  obtain ⟨opcode', next', parent', inputs', fields', mutation', shadow', topLevel'⟩ := c
  obtain rfl : opcode = opcode' := hb.opcode.unique hc.opcode
  obtain rfl : next = next' := hb.next.unique hc.next
  obtain rfl : parent = parent' := hb.parent.unique hc.parent
  obtain rfl : inputs = inputs' := hb.inputs.unique hc.inputs
  obtain rfl : fields = fields' := hb.fields.unique hc.fields
  obtain rfl : mutation = mutation' := hb.mutation.unique hc.mutation
  obtain rfl : shadow = shadow' := hb.shadow.unique hc.shadow
  obtain rfl : topLevel = topLevel' := hb.topLevel.unique hc.topLevel
  rfl

theorem given_opcode_iff {part : Option Node} {opcode : String} :
    Given .string true "" depth part opcode ↔ part = some (.text (.ok opcode)) := by
  cases part with
  | none => simp [Given]
  | some node => simp [Given, Decoder.string_eq_ok_iff]

theorem writtenIn_iff_decodedFrom (hcheck : node.check depth = .ok ()) :
    WrittenIn node b ↔ node.Shaped parts ∧ b.DecodedFrom (depth - 1) node := by
  have hpart (name : String) (part : Node) (h : node.part? parts name = some part) :
      part.check (depth - 1) = .ok () := Node.check_part hcheck h
  simp only [writtenIn_iff, decodedFrom_iff, given_opcode_iff,
    text_reads.optional.given_iff (hpart _), Input.reads.named.given_iff (hpart _),
    Field.reads.named.given_iff (hpart _), Mutation.reads.optional.given_iff (hpart _),
    flag_reads.given_iff (hpart _)]

/-- **A value that is JSON all through is decoded as a block exactly if it is written as one.** -/
theorem reads : Decoder.Reads Block.decode WrittenIn := by
  intro depth node b hcheck
  rw [writtenIn_iff_decodedFrom hcheck, decode]
  constructor
  · exact fun h => ⟨Record.shaped_of_decode h, decodedFrom h⟩
  · rintro ⟨hshaped, hb⟩
    have hfill : ∀ f ∈ record.fields, f.Fillable (depth - 1) (node.part? parts f.name) := by
      simp only [record, List.forall_mem_cons]
      exact ⟨hb.opcode.needed_fillable _, hb.next.defaulted_fillable _,
        hb.parent.defaulted_fillable _, hb.inputs.defaulted_fillable _,
        hb.fields.defaulted_fillable _, hb.mutation.defaulted_fillable _,
        hb.shadow.defaulted_fillable _, hb.topLevel.defaulted_fillable _, nofun⟩
    obtain ⟨c, hc⟩ := Record.exists_decode (r := record) (by decide) hcheck hshaped hfill
    rw [hc, (decodedFrom hc).unique hb]

end Block

end BlockStage
