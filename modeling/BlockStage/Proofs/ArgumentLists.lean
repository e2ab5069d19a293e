import BlockStage.Proofs.JsonReadBack
import BlockStage.Signature

/-!
Lists of arguments as texts. A mutation carries its names, ids and defaults as the texts that arrays
of them show, and the signature has just these names, ids and defaults again: numbers stay whole,
and texts that look like numbers or truth values stay texts.
-/

namespace BlockStage

namespace Json.Decoder

/-- A list of nodes that each decode to an item of their own decodes to these items. -/
theorem items_map {decode : Decoder α} {depth : Nat} {node : β → Node} {item : β → α}
    {bs : List β} (h : ∀ b ∈ bs, decode depth (node b) = .ok (item b)) :
    items decode depth (bs.map node) = .ok (bs.map item) := by
  induction bs with
  | nil => rfl
  | cons b bs ih =>
    have hitem := h b (by simp)
    have hitems := ih fun b hb => h b (by simp [hb])
    rw [List.map_cons, items, hitem, List.map_cons]
    simp [bind, Except.bind, pure, Except.pure, hitems]

theorem list_of_items {decode : Decoder α} {depth : Nat} {nodes : List Node} {as : List α}
    (hdepth : 1 < depth) (h : items decode (depth - 1) nodes = .ok as) :
    list decode depth (.list nodes none) = .ok as := by
  have henter : enter depth = .ok (depth - 1) := by
    rw [enter, if_neg (by omega)]
  simp [list, henter, h, stopAt, bind, Except.bind, pure, Except.pure]

end Json.Decoder

namespace Value

/-- Values that stand for themselves in the text of an array: whole numbers, texts, truth values. -/
def IsPlain : Value → Prop
  | integer _ | text _ | bool _ => True
  | number _ | array _ | vector _ | branch _ => False

theorem itemsToJson_eq_map (items : List Value) : itemsToJson items = items.map toJson := by
  induction items with
  | nil => rfl
  | cons item items ih => rw [itemsToJson, ih, List.map_cons]

theorem IsPlain.exact {v : Value} (h : v.IsPlain) : v.toJson.Exact := by
  cases v with
  | integer n =>
    have hlow : -9223372036854775808 ≤ n.toInt := n.le_toInt
    have hhigh : n.toInt < 9223372036854775808 := n.toInt_lt
    exact ⟨hlow, by omega⟩
  | text s => trivial
  | bool b => trivial
  | number _ | array _ | vector _ | branch _ => exact h.elim

/-- A plain value is decoded from its tree, as the same kind of value. -/
theorem IsPlain.decode_tree {v : Value} (h : v.IsPlain) (depth : Nat) :
    decode depth v.toJson.tree = .ok v := by
  cases v with
  | integer n =>
    have hback : Int64.ofInt n.toInt = n := Int64.ofInt_toInt n
    have hnode : ofNode? (.number (.ok (.integer n.toInt))) = some (integer n) := by
      simp [ofNode?, hback]
    have hcheck : Json.Node.check depth (.number (.ok (.integer n.toInt))) = .ok () := rfl
    simp [decode, toJson, Json.tree, hnode, hcheck, bind, Except.bind, pure, Except.pure]
  | text s => rfl
  | bool b => rfl
  | number _ | array _ | vector _ | branch _ => exact h.elim

/-- The text that an array of plain values shows decodes item by item. -/
theorem decodeText_display_array {decode : Json.Decoder α} {item : Value → α} {vs : List Value}
    (hplain : ∀ v ∈ vs, v.IsPlain)
    (hdecode : ∀ depth, ∀ v ∈ vs, decode depth v.toJson.tree = .ok (item v)) :
    Json.decodeText (Json.Decoder.list decode) (array vs).display = .ok (vs.map item) := by
  have hexact : (Json.list (itemsToJson vs)).Exact := by
    rw [Json.Exact, itemsToJson_eq_map, Json.exactItems_iff]
    intro j hj
    obtain ⟨v, hv, rfl⟩ := List.mem_map.mp hj
    exact (hplain v hv).exact
  have htree : (Json.list (itemsToJson vs)).tree =
      .list (vs.map fun v => v.toJson.tree) none := by
    rw [Json.tree, itemsToJson_eq_map, Json.itemTrees_eq_map, List.map_map]
    rfl
  have hlimit : 1 < Json.depthLimit := by decide
  have hlist := Json.Decoder.list_of_items hlimit
    (Json.Decoder.items_map (hdecode (Json.depthLimit - 1)))
  rw [display, Json.decodeText_compact _ _ hexact, htree, hlist]

theorem isPlain_of_mem_map_text {names : List String} {v : Value} (h : v ∈ names.map text) :
    v.IsPlain := by
  obtain ⟨name, _, rfl⟩ := List.mem_map.mp h
  trivial

end Value

namespace Signature

theorem decodeList_texts (list : ArgumentList) (names : List String) :
    decodeList list .string (some (Value.array (names.map .text)).display) = .ok names := by
  have hdecode (depth : Nat) : ∀ v ∈ names.map Value.text,
      Json.Decoder.string depth v.toJson.tree = .ok v.display := by
    intro v hv
    obtain ⟨name, _, rfl⟩ := List.mem_map.mp hv
    rfl
  have hnames : (names.map Value.text).map Value.display = names := by
    rw [List.map_map]
    exact List.map_id names
  have hread :=
    Value.decodeText_display_array (fun _ hv => Value.isPlain_of_mem_map_text hv) hdecode
  rw [hnames] at hread
  rw [decodeList]
  simp only [hread]

theorem decodeList_values (list : ArgumentList) {vs : List Value} (hplain : ∀ v ∈ vs, v.IsPlain) :
    decodeList list Value.decode (some (Value.array vs).display) = .ok vs := by
  have hdecode (depth : Nat) : ∀ v ∈ vs, Value.decode depth v.toJson.tree = .ok (id v) :=
    fun v hv => (hplain v hv).decode_tree depth
  have hread := Value.decodeText_display_array hplain hdecode
  rw [List.map_id] at hread
  rw [decodeList]
  simp only [hread]

/-- **Lists of arguments as texts.** If the lists of a mutation are the texts that arrays of names,
of ids and of plain defaults show, then its signature has these names, ids and defaults, and empty
texts for the parameters that have no default. -/
theorem ofMutation_displays (block : String) (m : Mutation) (names ids : List String)
    (defaults : List Value) (hnames : names.length = ids.length)
    (hdefaults : defaults.length ≤ ids.length) (hplain : ∀ v ∈ defaults, v.IsPlain)
    (hlists : m.argumentNames = some (Value.array (names.map .text)).display ∧
      m.argumentIds = some (Value.array (ids.map .text)).display ∧
      m.argumentDefaults = some (Value.array defaults).display) :
    ofMutation block m = .ok {
      names, ids
      defaults := defaults ++ List.replicate (ids.length - defaults.length) (.text "")
      warp := m.warp.any Value.toBool } := by
  obtain ⟨hn, hi, hd⟩ := hlists
  have hdecode : decode? m = .ok {
      names, ids
      defaults := defaults ++ List.replicate (ids.length - defaults.length) (.text "")
      warp := m.warp.any Value.toBool } := by
    rw [decode?, hn, hi, hd, decodeList_texts, decodeList_texts, decodeList_values _ hplain]
    simp [bind, Except.bind, pure, Except.pure, hnames, hdefaults]
  rw [ofMutation, hdecode]

/-- Names with quotes, backslashes and control characters, ids that look like numbers, and the
least whole number as a default. -/
def oddMutation : Mutation where
  argumentNames := some (Value.array (["say \"\\\"", "\n\x01", "é"].map .text)).display
  argumentIds := some (Value.array (["1", "true", "null"].map .text)).display
  argumentDefaults := some (Value.array [.integer Int64.minValue, .text "5"]).display
  warp := some (.text "true")

theorem ofMutation_displays_oddMutation :
    (∀ v ∈ [Value.integer Int64.minValue, .text "5"], v.IsPlain) ∧
      ofMutation "proto" oddMutation = .ok {
        names := ["say \"\\\"", "\n\x01", "é"]
        ids := ["1", "true", "null"]
        defaults := [.integer Int64.minValue, .text "5", .text ""]
        warp := true } := by
  have hplain : ∀ v ∈ [Value.integer Int64.minValue, .text "5"], v.IsPlain := by
    simp [Value.IsPlain]
  refine ⟨hplain, ?_⟩
  exact ofMutation_displays "proto" oddMutation ["say \"\\\"", "\n\x01", "é"]
    ["1", "true", "null"] [.integer Int64.minValue, .text "5"] rfl (by decide) hplain
    ⟨rfl, rfl, rfl⟩

end Signature

end BlockStage
