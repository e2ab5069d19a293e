import BlockStage.Json.Decode
import Mathlib.Data.List.Forall2

/-!
What decoded data was decoded from. A list has one item for each item of the text, an object one for
each member. A record is written as an object or as the list of its fields, and either way a field
has at most one part in the text. Where the part is there, the field is decoded from it and from
nothing else; where it is not, the field has its default, and then it is one that may be left out.
-/

namespace BlockStage.Json

theorem bind_eq_ok_iff {x : Except ε α} {f : α → Except ε β} {b : β} :
    x >>= f = .ok b ↔ ∃ a, x = .ok a ∧ f a = .ok b := by
  cases x <;> simp [bind, Except.bind]

theorem ofFault_eq_ok_iff {x : Except Fault α} {a : α} : ofFault x = .ok a ↔ x = .ok a := by
  cases x <;> simp [ofFault]

theorem enter_eq_ok {depth inner : Nat} (h : enter depth = .ok inner) : inner = depth - 1 := by
  unfold enter at h
  split at h <;> simp_all

theorem stopAt_eq_ok_iff {side : Break → Fault} {break? : Option Break} {u : Unit} :
    stopAt side break? = .ok u ↔ break? = none := by
  cases break? <;> simp [stopAt]

/-! ## Decoders -/

namespace Decoder

theorem string_eq_ok_iff {depth : Nat} {node : Node} {s : String} :
    string depth node = .ok s ↔ node = .text (.ok s) := by
  cases node <;> simp [string, ofFault_eq_ok_iff]

theorem boolean_eq_ok_iff {depth : Nat} {node : Node} {b : Bool} :
    boolean depth node = .ok b ↔ node = .bool b := by
  cases node <;> simp [boolean]

theorem optional_eq_ok_iff {decode : Decoder α} {depth : Nat} {node : Node}
    {a? : Option α} : optional decode depth node = .ok a? ↔
      (node = .null ∧ a? = none) ∨
      (node ≠ .null ∧ ∃ a, decode depth node = .ok a ∧ a? = some a) := by
  cases node <;>
    simp [optional, bind_eq_ok_iff, pure, Except.pure, @eq_comm _ a?]

theorem items_eq_ok_iff {decode : Decoder α} {depth : Nat} {nodes : List Node} {as : List α} :
    items decode depth nodes = .ok as ↔
      List.Forall₂ (fun node a => decode depth node = .ok a) nodes as := by
  induction nodes generalizing as with
  | nil => cases as <;> simp [items]
  | cons node nodes ih =>
    simp only [items, bind_eq_ok_iff, ih, List.forall₂_cons_left_iff]
    constructor
    · rintro ⟨a, hnode, rest, hrest, has⟩
      exact ⟨a, rest, hnode, hrest, by simpa [pure, Except.pure, eq_comm] using has⟩
    · rintro ⟨a, rest, hnode, hrest, rfl⟩
      exact ⟨a, hnode, rest, hrest, rfl⟩

theorem members_eq_ok_iff {decode : Decoder α} {depth : Nat}
    {pairs : List (Except Fault String × Node)} {as : List (String × α)} :
    members decode depth pairs = .ok as ↔
      List.Forall₂ (fun pair a => pair.1 = .ok a.1 ∧ decode depth pair.2 = .ok a.2) pairs as := by
  induction pairs generalizing as with
  | nil => cases as <;> simp [members]
  | cons pair pairs ih =>
    simp only [members, bind_eq_ok_iff, ofFault_eq_ok_iff, ih, List.forall₂_cons_left_iff]
    constructor
    · rintro ⟨key, hkey, a, hnode, rest, hrest, has⟩
      exact ⟨(key, a), rest, ⟨hkey, hnode⟩, hrest, by
        simpa [pure, Except.pure, eq_comm] using has⟩
    · rintro ⟨⟨key, a⟩, rest, ⟨hkey, hnode⟩, hrest, rfl⟩
      exact ⟨key, hkey, a, hnode, rest, hrest, rfl⟩

theorem list_eq_ok {decode : Decoder α} {depth : Nat} {node : Node} {as : List α}
    (h : list decode depth node = .ok as) :
    ∃ nodes, node = .list nodes none ∧
      List.Forall₂ (fun node a => decode (depth - 1) node = .ok a) nodes as := by
  cases node with
  | list nodes break? =>
    simp only [list, bind_eq_ok_iff, items_eq_ok_iff, stopAt_eq_ok_iff] at h
    obtain ⟨inner, henter, as', hitems, _, rfl, has⟩ := h
    obtain rfl : as' = as := by simpa [pure, Except.pure] using has
    exact ⟨nodes, rfl, enter_eq_ok henter ▸ hitems⟩
  | _ => simp [list] at h

theorem object_eq_ok {decode : Decoder α} {depth : Nat} {node : Node} {as : List (String × α)}
    (h : object decode depth node = .ok as) :
    ∃ pairs, node = .object pairs none ∧ List.Forall₂
      (fun pair a => pair.1 = .ok a.1 ∧ decode (depth - 1) pair.2 = .ok a.2) pairs as := by
  cases node with
  | object pairs break? =>
    simp only [object, bind_eq_ok_iff, members_eq_ok_iff, stopAt_eq_ok_iff] at h
    obtain ⟨inner, henter, as', hmembers, _, rfl, has⟩ := h
    obtain rfl : as' = as := by simpa [pure, Except.pure] using has
    exact ⟨pairs, rfl, enter_eq_ok henter ▸ hmembers⟩
  | _ => simp [object] at h

end Decoder

/-! ## Fields -/

namespace Field

variable {σ α β : Type}

/-- The field is decoded to what `get` gives. -/
def Fills (f : Field σ) (required : Bool) (decode : Decoder α) (get : σ → α) : Prop :=
  f.required = required ∧
    ∀ depth node s s', f.put depth node s = .ok s' → decode depth node = .ok (get s')

/-- The field does not change what `get` gives. -/
def Spares (f : Field σ) (get : σ → α) : Prop :=
  ∀ depth node s s', f.put depth node s = .ok s' → get s' = get s

variable (name : String) {decode : Decoder α} {set : α → σ → σ}

theorem needed_put_eq_ok_iff {depth : Nat} {node : Node} {s s' : σ} :
    (needed name decode set).put depth node s = .ok s' ↔
      ∃ a, decode depth node = .ok a ∧ set a s = s' := by
  cases h : decode depth node <;> simp [needed, Except.map, h]

@[simp] theorem needed_name : (needed name decode set).name = name := rfl

@[simp] theorem defaulted_name : (defaulted name decode set).name = name := rfl

@[simp] theorem needed_fills {get : σ → α} (h : ∀ a s, get (set a s) = a) :
    (needed name decode set).Fills true decode get := by
  refine ⟨rfl, fun depth node s s' hput => ?_⟩
  obtain ⟨a, hnode, rfl⟩ := (needed_put_eq_ok_iff name).mp hput
  rw [h, hnode]

@[simp] theorem defaulted_fills {get : σ → α} (h : ∀ a s, get (set a s) = a) :
    (defaulted name decode set).Fills false decode get :=
  ⟨rfl, (needed_fills name h).2⟩

@[simp] theorem needed_spares {get : σ → β} (h : ∀ a s, get (set a s) = get s) :
    (needed name decode set).Spares get := by
  intro depth node s s' hput
  obtain ⟨a, -, rfl⟩ := (needed_put_eq_ok_iff name).mp hput
  exact h a s

@[simp] theorem defaulted_spares {get : σ → β} (h : ∀ a s, get (set a s) = get s) :
    (defaulted name decode set).Spares get :=
  needed_spares name h

end Field

/-! ## Parts of records -/

/-- The value of a key in an object. Of a repeated key the last value counts. -/
def lastMember? (key : String) : List (Except Fault String × Node) → Option Node
  | [] => none
  | (written, node) :: members =>
    (lastMember? key members).or (if written.toOption = some key then some node else none)

theorem lastMember?_cons_self {key : String} {node : Node}
    {members : List (Except Fault String × Node)} (h : lastMember? key members = none) :
    lastMember? key ((.ok key, node) :: members) = some node := by
  simp [lastMember?, h, Except.toOption]

theorem lastMember?_cons_of_ne {key other : String} (hne : other ≠ key) (node : Node)
    (members : List (Except Fault String × Node)) :
    lastMember? key ((.ok other, node) :: members) = lastMember? key members := by
  simp [lastMember?, hne, Except.toOption]

theorem mem_of_lastMember? {key : String} {node : Node}
    {members : List (Except Fault String × Node)} (h : lastMember? key members = some node) :
    (.ok key, node) ∈ members := by
  induction members with
  | nil => simp [lastMember?] at h
  | cons member members ih =>
    obtain ⟨written, first⟩ := member
    cases hlast : lastMember? key members with
    | some last =>
      obtain rfl : last = node := by simpa [lastMember?, hlast] using h
      exact List.mem_cons_of_mem _ (ih hlast)
    | none =>
      cases written <;> simp_all [lastMember?, Except.toOption]

theorem lastMember?_eq_none {key : String} {members : List (Except Fault String × Node)}
    (h : ∀ part, (.ok key, part) ∉ members) : lastMember? key members = none := by
  cases hlast : lastMember? key members with
  | none => rfl
  | some last => exact absurd (mem_of_lastMember? hlast) (h last)

/-- What the part of a field decides. Without a part the default counts, if there may be none. -/
def Given (decode : Decoder α) (required : Bool) (default : α) (depth : Nat) (part : Option Node)
    (a : α) : Prop :=
  match part with
  | some node => decode depth node = .ok a
  | none => required = false ∧ a = default

section Given

variable {decode : Decoder α} {required : Bool} {default a : α} {depth : Nat} {part : Option Node}

theorem Given.cases (h : Given decode required default depth part a) :
    (part = none ∧ required = false ∧ a = default) ∨
      ∃ node, part = some node ∧ decode depth node = .ok a := by
  cases part with
  | none => exact .inl ⟨rfl, h⟩
  | some node => exact .inr ⟨node, rfl, h⟩

/-- What may not be left out is there. -/
theorem Given.exists_part (h : Given decode true default depth part a) :
    ∃ node, part = some node ∧ decode depth node = .ok a := by
  rcases h.cases with ⟨-, hrequired, -⟩ | hpart
  · cases hrequired
  · exact hpart

end Given

namespace Node

/-- The part with one of the names: the member under it, or the item in its place. -/
def part? (names : List String) (name : String) : Node → Option Node
  | .list nodes _ => (names.zip nodes).lookup name
  | .object members _ => lastMember? name members
  | _ => none

/-- Something stands in the text as the part with a name, maybe beside others. -/
def HasPart (names : List String) (name : String) : (node part : Node) → Prop
  | .list nodes _, part => (names.zip nodes).lookup name = some part
  | .object members _, part => (.ok name, part) ∈ members
  | _, _ => False

end Node

namespace Record

variable {σ : Type}

/-- The names of the fields, in the order in which a list has them. -/
abbrev names (r : Record σ) : List String := r.fields.map Field.name

/-- A field of the record puts in place what `get` gives, by `decode`, and no other field does. -/
structure Holds (r : Record σ) (name : String) (required : Bool) (decode : Decoder α)
    (get : σ → α) : Prop where
  nodup : (r.fields.map Field.name).Nodup
  mem : name ∈ r.fields.map Field.name
  own : ∀ f ∈ r.fields, f.name = name → f.Fills required decode get
  other : ∀ f ∈ r.fields, f.name ≠ name → f.Spares get

variable {r : Record σ} {name : String} {required : Bool} {decode : Decoder α} {get : σ → α}

/-! ## Records written as lists -/

/-- Of the fields still to be read, one is read from the item in its place and changed by no other;
a field read before is not changed any more. -/
theorem readItems_part (h : r.Holds name required decode get) {depth : Nat} {break? : Option Break}
    {s' : σ} (fields : List (Field σ)) (hfields : ∀ f ∈ fields, f ∈ r.fields)
    (hnodup : (fields.map Field.name).Nodup) (index : Nat) (nodes : List Node) (s : σ)
    (hread : r.readItems depth break? index fields nodes s = .ok s') :
    (name ∈ fields.map Field.name →
      Given decode required (get s) depth (((fields.map Field.name).zip nodes).lookup name)
        (get s')) ∧
    (name ∉ fields.map Field.name → get s' = get s) := by
  induction fields generalizing index nodes s with
  | nil =>
    cases nodes with
    | nil =>
      simp only [readItems, bind_eq_ok_iff] at hread
      obtain ⟨_, _, hs⟩ := hread
      simp [pure, Except.pure] at hs
      simp [hs]
    | cons node nodes => simp [readItems] at hread
  | cons f fields ih =>
    rw [List.map_cons, List.nodup_cons] at hnodup
    have hf : f ∈ r.fields := hfields f (by simp)
    have hrest : ∀ g ∈ fields, g ∈ r.fields := fun g hg => hfields g (by simp [hg])
    cases nodes with
    | nil =>
      simp only [readItems, bind_eq_ok_iff] at hread
      obtain ⟨_, _, hread⟩ := hread
      -- the list is over, so this field and all that follow are left at their defaults
      have hoptional : f.required = false := by
        cases hrequired : f.required with
        | false => rfl
        | true => simp [hrequired, bind_eq_ok_iff, throw, throwThe, MonadExceptOf.throw] at hread
      have htail : r.readItems depth break? (index + 1) fields [] s = .ok s' := by
        simpa [hoptional] using hread
      obtain ⟨hin, hout⟩ := ih hrest hnodup.2 _ [] s htail
      rw [List.zip_nil_right] at hin ⊢
      by_cases hname : f.name = name
      · have hnot : name ∉ fields.map Field.name := hname ▸ hnodup.1
        refine ⟨fun _ => ?_, fun hnone => absurd (by simp [hname]) hnone⟩
        exact ⟨(h.own f hf hname).1 ▸ hoptional, hout hnot⟩
      · have hmem : name ∈ (f :: fields).map Field.name ↔ name ∈ fields.map Field.name := by
          simp [Ne.symm hname]
        rw [hmem]
        exact ⟨hin, hout⟩
    | cons node nodes =>
      simp only [readItems, bind_eq_ok_iff] at hread
      obtain ⟨s₁, hput, hread⟩ := hread
      obtain ⟨hin, hout⟩ := ih hrest hnodup.2 _ nodes s₁ hread
      rw [List.map_cons, List.zip_cons_cons]
      by_cases hname : f.name = name
      · have hnot : name ∉ fields.map Field.name := hname ▸ hnodup.1
        have hlookup : ((f.name, node) :: (fields.map Field.name).zip nodes).lookup name =
            some node := by simp [hname]
        refine ⟨fun _ => ?_, fun hnone => absurd (by simp [hname]) hnone⟩
        rw [hlookup, hout hnot]
        exact (h.own f hf hname).2 _ _ _ _ hput
      · have hkeep : get s₁ = get s := h.other f hf hname _ _ _ _ hput
        have hlookup : ((f.name, node) :: (fields.map Field.name).zip nodes).lookup name =
            ((fields.map Field.name).zip nodes).lookup name := by
          simp [List.lookup_cons, beq_false_of_ne (Ne.symm hname)]
        rw [hkeep] at hin hout
        rw [hlookup, List.mem_cons, or_iff_right (Ne.symm hname)]
        exact ⟨hin, hout⟩

/-! ## Records written as objects -/

/-- A member is skipped, or it is the first one of its field and is put in place. -/
theorem readMembers_cons {depth : Nat} {seen : List String} {written : Except Fault String}
    {node : Node} {members : List (Except Fault String × Node)} {s : σ} {out : List String × σ}
    (hread : r.readMembers depth seen ((written, node) :: members) s = .ok out) :
    ∃ key, written = .ok key ∧
      ((key ∉ r.fields.map Field.name ∧ r.readMembers depth seen members s = .ok out) ∨
        ∃ f ∈ r.fields, f.name = key ∧ key ∉ seen ∧ ∃ s₁, f.put depth node s = .ok s₁ ∧
          r.readMembers depth (key :: seen) members s₁ = .ok out) := by
  simp only [readMembers, bind_eq_ok_iff, ofFault_eq_ok_iff] at hread
  obtain ⟨key, rfl, hread⟩ := hread
  refine ⟨key, rfl, ?_⟩
  cases hfind : r.fields.find? (·.name == key) with
  | none =>
    simp only [hfind, bind_eq_ok_iff] at hread
    obtain ⟨_, _, hread⟩ := hread
    exact .inl ⟨by simpa using hfind, hread⟩
  | some f =>
    have hnew : key ∉ seen := by
      intro hmem
      simp [hfind, hmem, bind_eq_ok_iff, throw, throwThe, MonadExceptOf.throw] at hread
    refine .inr ⟨f, List.mem_of_find?_eq_some hfind, by simpa using List.find?_some hfind, hnew, ?_⟩
    simpa [hfind, hnew, bind_eq_ok_iff] using hread

/-- A field that was read before has no further member; one that was not has at most one. -/
theorem readMembers_unique (hname : name ∈ r.fields.map Field.name) {depth : Nat}
    {out : List String × σ} (members : List (Except Fault String × Node)) (seen : List String)
    (s : σ) (hread : r.readMembers depth seen members s = .ok out) :
    (name ∈ seen → ∀ part, (.ok name, part) ∉ members) ∧
      ∀ part, (.ok name, part) ∈ members → lastMember? name members = some part := by
  induction members generalizing seen s with
  | nil => simp
  | cons member members ih =>
    obtain ⟨written, node⟩ := member
    obtain ⟨key, rfl, ⟨hother, hread⟩ | ⟨f, -, -, hnew, s₁, -, hread⟩⟩ := readMembers_cons hread
    · have hne : key ≠ name := by
        rintro rfl
        exact hother hname
      rw [lastMember?_cons_of_ne hne]
      simpa [Ne.symm hne] using ih seen s hread
    · obtain ⟨hold, hfresh⟩ := ih (key :: seen) s₁ hread
      by_cases hkey : key = name
      · subst hkey
        refine ⟨fun hmem => absurd hmem hnew, fun part hpart => ?_⟩
        rw [lastMember?_cons_self (lastMember?_eq_none (hold (by simp)))]
        rcases List.mem_cons.mp hpart with hfirst | hrest
        · cases hfirst
          rfl
        · exact absurd hrest (hold (by simp) part)
      · rw [lastMember?_cons_of_ne hkey]
        rw [List.mem_cons, or_iff_right (Ne.symm hkey)] at hold
        simpa [Ne.symm hkey] using ⟨hold, hfresh⟩

/-- Without a member the field is neither changed nor seen, with one it is decoded from it. -/
theorem readMembers_part (h : r.Holds name required decode get) {depth : Nat} {seen' : List String}
    {s' : σ} (members : List (Except Fault String × Node)) (seen : List String) (s : σ)
    (hread : r.readMembers depth seen members s = .ok (seen', s')) :
    (lastMember? name members = none → get s' = get s ∧ (name ∈ seen' ↔ name ∈ seen)) ∧
      ∀ node, lastMember? name members = some node → decode depth node = .ok (get s') := by
  induction members generalizing seen s with
  | nil =>
    simp only [readMembers, Except.ok.injEq, Prod.mk.injEq] at hread
    obtain ⟨rfl, rfl⟩ := hread
    simp [lastMember?]
  | cons member members ih =>
    obtain ⟨written, node⟩ := member
    obtain ⟨key, rfl, ⟨hother, hread⟩ | ⟨f, hf, hkey, hnew, s₁, hput, hread⟩⟩ :=
      readMembers_cons hread
    · have hne : key ≠ name := by
        rintro rfl
        exact hother h.mem
      rw [lastMember?_cons_of_ne hne]
      exact ih seen s hread
    · obtain ⟨hnone, hsome⟩ := ih (key :: seen) s₁ hread
      by_cases hname : key = name
      · subst hname
        have habsent := (readMembers_unique h.mem members (key :: seen) s₁ hread).1 (by simp)
        have hlast : lastMember? key members = none := lastMember?_eq_none habsent
        rw [lastMember?_cons_self hlast, (hnone hlast).1]
        refine ⟨by simp, fun part hpart => ?_⟩
        obtain rfl : node = part := by simpa using hpart
        exact (h.own f hf hkey).2 _ _ _ _ hput
      · have hkeep : get s₁ = get s := h.other f hf (hkey ▸ hname) _ _ _ _ hput
        rw [lastMember?_cons_of_ne hname, ← hkeep]
        rw [List.mem_cons, or_iff_right (Ne.symm hname)] at hnone
        exact ⟨hnone, hsome⟩

/-! ## Both -/

/-- **A field of a decoded record comes from its part in the text, or else it is optional and has
its default.** -/
theorem decode_part (get : σ → α) (h : r.Holds name required decode get) {depth : Nat}
    {node : Node} {s : σ} (hdec : r.decode depth node = .ok s) :
    Given decode required (get r.blank) (depth - 1) (node.part? r.names name) (get s) := by
  cases node with
  | list nodes break? =>
    simp only [Record.decode, bind_eq_ok_iff] at hdec
    obtain ⟨inner, henter, hread⟩ := hdec
    rw [enter_eq_ok henter] at hread
    exact (readItems_part h r.fields (fun _ hf => hf) h.nodup 0 nodes r.blank hread).1 h.mem
  | object members break? =>
    simp only [Record.decode, bind_eq_ok_iff] at hdec
    obtain ⟨inner, henter, ⟨seen, s'⟩, hread, _, _, hmissing⟩ := hdec
    rw [enter_eq_ok henter] at hread
    cases hfind : r.fields.find? (fun field => field.required && !seen.contains field.name) with
    | some field =>
      rw [hfind] at hmissing
      simp [throw, throwThe, MonadExceptOf.throw] at hmissing
    | none =>
      rw [hfind] at hmissing
      obtain rfl : s' = s := by simpa [pure, Except.pure] using hmissing
      obtain ⟨hnone, hsome⟩ := readMembers_part h members [] r.blank hread
      cases hlast : lastMember? name members with
      | some node => simpa [Node.part?, Given, hlast] using hsome node hlast
      | none =>
        obtain ⟨hkeep, hseen⟩ := hnone hlast
        obtain ⟨f, hf, hname⟩ := List.mem_map.mp h.mem
        have hoptional : f.required = false := by
          have := List.find?_eq_none.mp hfind f hf
          simpa [hname, hseen] using this
        have : required = false := (h.own f hf hname).1 ▸ hoptional
        simpa [Node.part?, Given, hlast] using ⟨this, hkeep⟩
  | _ => simp [Record.decode] at hdec

/-- In a record that can be decoded no field has two parts. -/
theorem hasPart_iff (hname : name ∈ r.fields.map Field.name) {depth : Nat} {node part : Node}
    {s : σ} (hdec : r.decode depth node = .ok s) :
    node.HasPart r.names name part ↔ node.part? r.names name = some part := by
  cases node with
  | object members break? =>
    simp only [Record.decode, bind_eq_ok_iff] at hdec
    obtain ⟨_, _, _, hread, -⟩ := hdec
    exact ⟨(readMembers_unique hname members [] r.blank hread).2 part, mem_of_lastMember?⟩
  | list nodes break? => rfl
  | _ => simp [Node.HasPart, Node.part?]

end Record

end BlockStage.Json
