import BlockStage.Proofs.ArgumentLists
import BlockStage.Proofs.Binding
import BlockStage.Proofs.FaultTexts
import BlockStage.Proofs.RecordParts

/-!
Which mutations have a signature. The texts of names, ids and defaults have to be JSON lists of the
right items, with a name for each id and no more defaults than ids. The first of these conditions
that fails is the fault. So the lists of every signature have one length, and a call binds all of
its parameters.
-/

namespace BlockStage

namespace Json

/-- The text is one JSON list of these nodes, with nothing but blanks after it. -/
def IsListText (text : String) (nodes : List Node) : Prop :=
  (Source.ofText text).root = .list nodes none ∧ (skipBlanks (Source.ofText text).rest).isEmpty

theorem Decoder.list_eq_ok_iff {decode : Decoder α} {depth : Nat} (hdepth : 1 < depth) {node : Node}
    {as : List α} : list decode depth node = .ok as ↔
      ∃ nodes, node = .list nodes none ∧
        List.Forall₂ (fun node a => decode (depth - 1) node = .ok a) nodes as := by
  constructor
  · exact list_eq_ok
  · rintro ⟨nodes, rfl, hitems⟩
    exact list_of_items hdepth (items_eq_ok_iff.mpr hitems)

theorem decodeText_eq_ok_iff {decode : Decoder α} {text : String} {a : α} :
    decodeText decode text = .ok a ↔
      decode depthLimit (Source.ofText text).root = .ok a ∧
        (skipBlanks (Source.ofText text).rest).isEmpty := by
  rw [decodeText, bind_eq_ok_iff]
  constructor
  · rintro ⟨a', hroot, hrest⟩
    split at hrest
    · next hempty =>
      cases hrest
      exact ⟨hroot, hempty⟩
    · cases hrest
  · rintro ⟨hroot, hempty⟩
    exact ⟨a, hroot, by rw [if_pos hempty]; rfl⟩

/-- A list is decoded from a text of the list, item by item. -/
theorem decodeText_list_eq_ok_iff {decode : Decoder α} {text : String} {as : List α} :
    decodeText (.list decode) text = .ok as ↔
      ∃ nodes, IsListText text nodes ∧
        List.Forall₂ (fun node a => decode (depthLimit - 1) node = .ok a) nodes as := by
  have hlimit : 1 < depthLimit := by decide
  rw [decodeText_eq_ok_iff, Decoder.list_eq_ok_iff hlimit]
  constructor
  · rintro ⟨⟨nodes, hroot, hitems⟩, hempty⟩
    exact ⟨nodes, ⟨hroot, hempty⟩, hitems⟩
  · rintro ⟨nodes, ⟨hroot, hempty⟩, hitems⟩
    exact ⟨⟨nodes, hroot, hitems⟩, hempty⟩

end Json

namespace Value

/-- The plain values of JSON, and what they stand for. A whole number that no integer of 64 bits
equals stands for a float. -/
inductive IsLiteral : Json.Node → Value → Prop where
  | integer (n : Int64) : IsLiteral (.number (.ok (.integer n.toInt))) (.integer n)
  | wide {n : Int} (h : ∀ k : Int64, k.toInt ≠ n) :
      IsLiteral (.number (.ok (.integer n))) (.number (.ofInt n))
  | number (x : Float) : IsLiteral (.number (.ok (.float x))) (.number x)
  | text (s : String) : IsLiteral (.text (.ok s)) (.text s)
  | bool (b : Bool) : IsLiteral (.bool b) (.bool b)

theorem IsLiteral.ofNode?_eq {node : Json.Node} {v : Value} (h : IsLiteral node v) :
    ofNode? node = some v := by
  cases h with
  | integer k => simp [ofNode?]
  | wide hwide => rw [ofNode?, if_neg (hwide _)]
  | number | text | bool => rfl

theorem isLiteral_ite (n : Int) :
    IsLiteral (.number (.ok (.integer n)))
      (if (Int64.ofInt n).toInt = n then .integer (.ofInt n) else .number (.ofInt n)) := by
  split
  · next hfits =>
    have hliteral := IsLiteral.integer (Int64.ofInt n)
    rwa [hfits] at hliteral
  · next hwide =>
    refine .wide fun k hk => hwide ?_
    rw [← hk, Int64.ofInt_toInt]

theorem ofNode?_eq_some_iff (node : Json.Node) (v : Value) :
    ofNode? node = some v ↔ IsLiteral node v := by
  constructor
  · intro h
    unfold ofNode? at h
    split at h
    · next n =>
      have hliteral := isLiteral_ite n
      rw [← apply_ite some, Option.some.injEq] at h
      rwa [h] at hliteral
    · cases h
      exact .number _
    · cases h
      exact .text _
    · cases h
      exact .bool _
    · cases h
  · exact IsLiteral.ofNode?_eq

theorem IsLiteral.check {node : Json.Node} {v : Value} (h : IsLiteral node v) (depth : Nat) :
    node.check depth = .ok () := by
  cases h <;> rfl

/-- Values are decoded from what stands for them, at any depth. -/
theorem decode_eq_ok_iff (depth : Nat) (node : Json.Node) (v : Value) :
    decode depth node = .ok v ↔ IsLiteral node v := by
  rw [decode, Json.bind_eq_ok_iff, ← ofNode?_eq_some_iff]
  constructor
  · rintro ⟨_, _, hvalue⟩
    split at hvalue
    · next value hnode =>
      cases hvalue
      exact hnode
    · cases hvalue
  · intro hnode
    have hcheck := ((ofNode?_eq_some_iff node v).mp hnode).check depth
    exact ⟨(), hcheck, by rw [hnode]; rfl⟩

end Value

namespace Signature

/-! ## The lists of a mutation -/

/-- The items that a text of a mutation stands for. A text that is not there stands for none. -/
def Lists (standsFor : Json.Node → α → Prop) : Option String → List α → Prop
  | none, items => items = []
  | some text, items =>
    ∃ nodes, Json.IsListText text nodes ∧ List.Forall₂ standsFor nodes items

def IsText (node : Json.Node) (s : String) : Prop := node = .text (.ok s)

/-- A text of a mutation is there and is not decoded. -/
def Unreadable (decode : Json.Decoder α) (text? : Option String) (error : Json.Error) : Prop :=
  ∃ text, text? = some text ∧ Json.decodeText (.list decode) text = .error error

theorem decodeList_eq_ok_iff {decode : Json.Decoder α} {standsFor : Json.Node → α → Prop}
    (hdecode : ∀ depth node a, decode depth node = .ok a ↔ standsFor node a) (list : ArgumentList)
    (text? : Option String) (items : List α) :
    decodeList list decode text? = .ok items ↔ Lists standsFor text? items := by
  cases text? with
  | none => simp [decodeList, Lists, eq_comm]
  | some text =>
    have hread := @Json.decodeText_list_eq_ok_iff _ decode text items
    simp only [hdecode] at hread
    rw [Lists, ← hread, decodeList]
    cases Json.decodeText (.list decode) text <;> simp

theorem decodeList_eq_error_iff (decode : Json.Decoder α) (list : ArgumentList)
    (text? : Option String) (fault : MutationFault) :
    decodeList list decode text? = .error fault ↔
      ∃ error, Unreadable decode text? error ∧ fault = .undecodable list error := by
  cases text? with
  | none => simp [decodeList, Unreadable]
  | some text =>
    simp only [decodeList, Unreadable, Option.some.injEq, exists_eq_left']
    cases Json.decodeText (.list decode) text <;> simp [eq_comm]

/-- The lists that the texts of a mutation stand for. -/
structure HasLists (m : Mutation) (names ids : List String) (defaults : List Value) : Prop where
  names : Lists IsText m.argumentNames names
  ids : Lists IsText m.argumentIds ids
  defaults : Lists Value.IsLiteral m.argumentDefaults defaults

/-- The first check that a mutation fails: its texts are decoded in the order of names, ids and
defaults, and then names and defaults are counted against the ids. -/
inductive FirstFault (m : Mutation) : MutationFault → Prop where
  | names {error : Json.Error} (hnames : Unreadable .string m.argumentNames error) :
      FirstFault m (.undecodable .names error)
  | ids {names : List String} {error : Json.Error} (hnames : Lists IsText m.argumentNames names)
      (hids : Unreadable .string m.argumentIds error) : FirstFault m (.undecodable .ids error)
  | defaults {names ids : List String} {error : Json.Error}
      (hnames : Lists IsText m.argumentNames names) (hids : Lists IsText m.argumentIds ids)
      (hdefaults : Unreadable Value.decode m.argumentDefaults error) :
      FirstFault m (.undecodable .defaults error)
  | nameCount {names ids : List String} {defaults : List Value}
      (hlists : HasLists m names ids defaults) (hcount : names.length ≠ ids.length) :
      FirstFault m (.nameCount names.length ids.length)
  | defaultCount {names ids : List String} {defaults : List Value}
      (hlists : HasLists m names ids defaults) (hcount : names.length = ids.length)
      (hmore : ids.length < defaults.length) :
      FirstFault m (.defaultCount defaults.length ids.length)

/-- The signature with the given lists, and empty texts for the defaults that are not there. -/
def padded (m : Mutation) (names ids : List String) (defaults : List Value) : Signature where
  names := names
  ids := ids
  defaults := defaults ++ List.replicate (ids.length - defaults.length) (.text "")
  warp := m.warp.any Value.toBool

theorem decodeNames_iff (list : ArgumentList) (text? : Option String) (items : List String) :
    decodeList list .string text? = .ok items ↔ Lists IsText text? items := by
  have hdecode (depth : Nat) (node : Json.Node) (s : String) :
      Json.Decoder.string depth node = .ok s ↔ IsText node s := Json.Decoder.string_eq_ok_iff
  exact decodeList_eq_ok_iff hdecode list text? items

theorem decodeValues_iff (list : ArgumentList) (text? : Option String) (items : List Value) :
    decodeList list Value.decode text? = .ok items ↔ Lists Value.IsLiteral text? items :=
  decodeList_eq_ok_iff Value.decode_eq_ok_iff list text? items

/-! ## Acceptance and refusal -/

section

variable {m : Mutation}

/-- Once the three texts are decoded, only the counts matter. -/
theorem decode?_of_hasLists {names ids : List String} {defaults : List Value}
    (h : HasLists m names ids defaults) :
    decode? m =
      if names.length ≠ ids.length then .error (.nameCount names.length ids.length)
      else if ids.length < defaults.length then .error (.defaultCount defaults.length ids.length)
      else .ok (padded m names ids defaults) := by
  rw [decode?, (decodeNames_iff .names _ _).mpr h.names, (decodeNames_iff .ids _ _).mpr h.ids,
    (decodeValues_iff .defaults _ _).mpr h.defaults]
  simp only [bind, Except.bind, pure, Except.pure, throw, throwThe, MonadExceptOf.throw]
  split
  · rfl
  · split <;> rfl

theorem decode?_of_firstFault {fault : MutationFault} (h : FirstFault m fault) :
    decode? m = .error fault := by
  cases h with
  | names hnames =>
    rw [decode?, (decodeList_eq_error_iff _ .names _ _).mpr ⟨_, hnames, rfl⟩]
    rfl
  | ids hnames hids =>
    rw [decode?, (decodeNames_iff .names _ _).mpr hnames,
      (decodeList_eq_error_iff _ .ids _ _).mpr ⟨_, hids, rfl⟩]
    rfl
  | defaults hnames hids hdefaults =>
    rw [decode?, (decodeNames_iff .names _ _).mpr hnames, (decodeNames_iff .ids _ _).mpr hids,
      (decodeList_eq_error_iff _ .defaults _ _).mpr ⟨_, hdefaults, rfl⟩]
    rfl
  | nameCount hlists hcount => rw [decode?_of_hasLists hlists, if_pos hcount]
  | defaultCount hlists hcount hmore =>
    rw [decode?_of_hasLists hlists, if_neg (not_not_intro hcount), if_pos hmore]

/-- Some check is the first to fail, unless the texts are decoded to lists of the right lengths. -/
theorem exists_lists_or_fault (m : Mutation) :
    (∃ names ids defaults, HasLists m names ids defaults ∧ names.length = ids.length ∧
      defaults.length ≤ ids.length) ∨ ∃ fault, FirstFault m fault := by
  cases hnames : decodeList .names .string m.argumentNames with
  | error fault =>
    obtain ⟨error, hunreadable, _⟩ := (decodeList_eq_error_iff _ _ _ _).mp hnames
    exact .inr ⟨_, .names hunreadable⟩
  | ok names =>
    rw [decodeNames_iff] at hnames
    cases hids : decodeList .ids .string m.argumentIds with
    | error fault =>
      obtain ⟨error, hunreadable, _⟩ := (decodeList_eq_error_iff _ _ _ _).mp hids
      exact .inr ⟨_, .ids hnames hunreadable⟩
    | ok ids =>
      rw [decodeNames_iff] at hids
      cases hdefaults : decodeList .defaults Value.decode m.argumentDefaults with
      | error fault =>
        obtain ⟨error, hunreadable, _⟩ := (decodeList_eq_error_iff _ _ _ _).mp hdefaults
        exact .inr ⟨_, .defaults hnames hids hunreadable⟩
      | ok defaults =>
        rw [decodeValues_iff] at hdefaults
        have hlists : HasLists m names ids defaults := ⟨hnames, hids, hdefaults⟩
        by_cases hcount : names.length = ids.length
        · rcases Nat.lt_or_ge ids.length defaults.length with hmore | hfew
          · exact .inr ⟨_, .defaultCount hlists hcount hmore⟩
          · exact .inl ⟨names, ids, defaults, hlists, hcount, hfew⟩
        · exact .inr ⟨_, .nameCount hlists hcount⟩

theorem decode?_of_counts {names ids : List String} {defaults : List Value}
    (hlists : HasLists m names ids defaults) (hcount : names.length = ids.length)
    (hfew : defaults.length ≤ ids.length) : decode? m = .ok (padded m names ids defaults) := by
  rw [decode?_of_hasLists hlists, if_neg (not_not_intro hcount), if_neg (Nat.not_lt.mpr hfew)]

theorem decode?_eq_ok_iff (s : Signature) :
    decode? m = .ok s ↔ ∃ names ids defaults, HasLists m names ids defaults ∧
      names.length = ids.length ∧ defaults.length ≤ ids.length ∧
      s = padded m names ids defaults := by
  constructor
  · intro h
    rcases exists_lists_or_fault m with ⟨names, ids, defaults, hlists, hcount, hfew⟩ |
      ⟨fault, hfault⟩
    · rw [decode?_of_counts hlists hcount hfew, Except.ok.injEq] at h
      exact ⟨names, ids, defaults, hlists, hcount, hfew, h.symm⟩
    · rw [decode?_of_firstFault hfault] at h
      cases h
  · rintro ⟨names, ids, defaults, hlists, hcount, hfew, rfl⟩
    exact decode?_of_counts hlists hcount hfew

theorem decode?_eq_error_iff (fault : MutationFault) :
    decode? m = .error fault ↔ FirstFault m fault := by
  constructor
  · intro h
    rcases exists_lists_or_fault m with ⟨_, _, _, hlists, hcount, hfew⟩ | ⟨first, hfault⟩
    · rw [decode?_of_counts hlists hcount hfew] at h
      cases h
    · rw [decode?_of_firstFault hfault, Except.error.injEq] at h
      exact h ▸ hfault
  · exact decode?_of_firstFault

theorem ofMutation_eq_ok_iff (block : String) (m : Mutation) (s : Signature) :
    ofMutation block m = .ok s ↔ decode? m = .ok s := by
  cases hd : decode? m <;> simp [ofMutation, hd]

theorem ofMutation_eq_error_iff (block : String) (m : Mutation) (e : MutationError) :
    ofMutation block m = .error e ↔ e.block = block ∧ decode? m = .error e.fault := by
  obtain ⟨id, fault⟩ := e
  cases hd : decode? m <;> simp [ofMutation, hd, eq_comm]

end

/-! ## Lists of one length -/

/-- Names, ids and defaults have one length, so that putting them side by side drops none. -/
structure Aligned (s : Signature) : Prop where
  names_length : s.names.length = s.ids.length
  defaults_length : s.defaults.length = s.ids.length
  names : (s.names.zip (s.ids.zip s.defaults)).map Prod.fst = s.names
  ids : (s.names.zip (s.ids.zip s.defaults)).map (·.2.1) = s.ids
  defaults : (s.names.zip (s.ids.zip s.defaults)).map (·.2.2) = s.defaults

theorem Aligned.of_length {s : Signature} (hnames : s.names.length = s.ids.length)
    (hdefaults : s.defaults.length = s.ids.length) : s.Aligned := by
  have hinner : (s.ids.zip s.defaults).length = s.ids.length := by
    rw [List.length_zip, hdefaults, Nat.min_self]
  have hsnd : (s.names.zip (s.ids.zip s.defaults)).map Prod.snd = s.ids.zip s.defaults :=
    List.map_snd_zip (by omega)
  refine ⟨hnames, hdefaults, List.map_fst_zip (by omega), ?_, ?_⟩
  · calc
      _ = ((s.names.zip (s.ids.zip s.defaults)).map Prod.snd).map Prod.fst := by
        rw [List.map_map]
        rfl
      _ = s.ids := by rw [hsnd, List.map_fst_zip (by omega)]
  · calc
      _ = ((s.names.zip (s.ids.zip s.defaults)).map Prod.snd).map Prod.snd := by
        rw [List.map_map]
        rfl
      _ = s.defaults := by rw [hsnd, List.map_snd_zip (by omega)]

/-- **Which mutations have a signature.** A mutation has one exactly if its texts are decoded to
names, ids and defaults, with a name for each id and no more defaults than ids; the signature has
these lists, with empty texts in place of missing defaults. Otherwise the error names the block and
the first check that fails, in words that no other check has. So the signatures of all blocks are
aligned, and a call binds every name of its signature. -/
theorem ofMutation_decodes (block : String) (m : Mutation) :
    (∀ s, ofMutation block m = .ok s ↔ ∃ names ids defaults, HasLists m names ids defaults ∧
      names.length = ids.length ∧ defaults.length ≤ ids.length ∧
      s = {
        names, ids
        defaults := defaults ++ List.replicate (ids.length - defaults.length) (.text "")
        warp := m.warp.any Value.toBool }) ∧
    (∀ e, ofMutation block m = .error e ↔ e.block = block ∧ FirstFault m e.fault) ∧
    (∀ e other : MutationError, ofMutation block m = .error e → other.block = block →
      other.message = e.message → other.fault.SameCheck e.fault) ∧
    (∀ s, ofMutation block m = .ok s → s.Aligned) ∧
    (∀ (blocks : Blocks) (code : String) (s : Signature), blocks.signature? code = some s →
      s.Aligned) ∧
    ∀ (args : Arguments) (scene bound : Scene) (code : String),
      Procedure.bind? args scene = some (code, bound) →
        ∃ s parameters, scene.signature? code = some s ∧ s.Aligned ∧
          bound.thread.topFrame?.bind Frame.parameters = some parameters ∧
          Procedure.IsBinding s args.values parameters := by
  refine ⟨?_, ?_, ?_, ?_, ?_, ?_⟩
  · intro s
    rw [ofMutation_eq_ok_iff]
    exact decode?_eq_ok_iff s
  · intro e
    rw [ofMutation_eq_error_iff, decode?_eq_error_iff]
  · intro e other h hblock
    have he := ((ofMutation_eq_error_iff block m e).mp h).1
    exact MutationError.sameCheck_of_message_eq (hblock.trans he.symm)
  · intro s h
    obtain ⟨hnames, hdefaults⟩ := aligned_of_decode? ((ofMutation_eq_ok_iff block m s).mp h)
    exact .of_length hnames hdefaults
  · intro blocks code s h
    obtain ⟨hnames, hdefaults⟩ := Blocks.aligned_of_signature? h
    exact .of_length hnames hdefaults
  · intro args scene bound code hbind
    obtain ⟨entry, below, s, _, _, _, hsig, rfl⟩ :=
      (Procedure.bind?_eq_some_iff args scene code bound).mp hbind
    obtain ⟨hnames, hdefaults⟩ := Procedure.aligned_of_scene_signature? hsig
    refine ⟨s, _, hsig, .of_length hnames hdefaults, ?_,
      Procedure.isBinding_suppliedValues args s hnames hdefaults⟩
    simp [Thread.topFrame?, Scene.mapThread, Procedure.bindAll_eq]

end Signature

end BlockStage
