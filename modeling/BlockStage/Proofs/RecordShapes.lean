import BlockStage.Proofs.RecordParts

/-!
What can be decoded. Of a value that is JSON all through, a decoder gives just what a relation says
that does not mention it; so for a record, that it has the right shape and each of its parts can be
decoded is enough.
-/

namespace BlockStage.Json

/-! ## Values that are JSON all through -/

namespace Node

theorem checkItems_cons_eq_ok_iff (depth : Nat) (item : Node) (items : List Node) :
    checkItems depth (item :: items) = .ok () ↔
      item.check depth = .ok () ∧ checkItems depth items = .ok () := by
  simp only [checkItems, bind_eq_ok_iff, Unique.exists_iff]

theorem check_list_eq_ok_iff (depth : Nat) (items : List Node) (break? : Option Break) :
    (list items break?).check depth = .ok () ↔
      ∃ inner, enter depth = .ok inner ∧ checkItems inner items = .ok () ∧ break? = none := by
  simp only [check, bind_eq_ok_iff, stopAt_eq_ok_iff, Unique.exists_iff]

theorem checkMembers_cons_eq_ok_iff (depth : Nat) (written : Except Fault String) (node : Node)
    (members : List (Except Fault String × Node)) :
    checkMembers depth ((written, node) :: members) = .ok () ↔
      (∃ key, written = .ok key) ∧ node.check depth = .ok () ∧
        checkMembers depth members = .ok () := by
  simp only [checkMembers, bind_eq_ok_iff, ofFault_eq_ok_iff, Unique.exists_iff,
    exists_and_right]

theorem check_object_eq_ok_iff (depth : Nat) (members : List (Except Fault String × Node))
    (break? : Option Break) :
    (object members break?).check depth = .ok () ↔
      ∃ inner, enter depth = .ok inner ∧ checkMembers inner members = .ok () ∧ break? = none := by
  simp only [check, bind_eq_ok_iff, stopAt_eq_ok_iff, Unique.exists_iff]

theorem check_of_mem_items {depth : Nat} {items : List Node} (h : checkItems depth items = .ok ()) :
    ∀ item ∈ items, item.check depth = .ok () := by
  induction items with
  | nil => simp
  | cons first items ih =>
    obtain ⟨hfirst, hitems⟩ := (checkItems_cons_eq_ok_iff _ _ _).mp h
    exact List.forall_mem_cons.mpr ⟨hfirst, ih hitems⟩

theorem check_of_mem_members {depth : Nat} {members : List (Except Fault String × Node)}
    (h : checkMembers depth members = .ok ()) :
    ∀ member ∈ members, (∃ key, member.1 = .ok key) ∧ member.2.check depth = .ok () := by
  induction members with
  | nil => simp
  | cons first members ih =>
    obtain ⟨hkey, hfirst, hmembers⟩ := (checkMembers_cons_eq_ok_iff _ _ _ _).mp h
    exact List.forall_mem_cons.mpr ⟨⟨hkey, hfirst⟩, ih hmembers⟩

theorem mem_of_lookup_zip {names : List String} {nodes : List Node} {name : String} {part : Node}
    (h : (names.zip nodes).lookup name = some part) : part ∈ nodes := by
  obtain ⟨before, after, hsplit, -⟩ := List.lookup_eq_some_iff.mp h
  have hmem : (name, part) ∈ names.zip nodes := by
    rw [hsplit]
    exact List.mem_append_right before List.mem_cons_self
  exact (List.of_mem_zip hmem).2

theorem check_part {depth : Nat} {node part : Node} {names : List String} {name : String}
    (h : node.check depth = .ok ()) (hpart : node.part? names name = some part) :
    part.check (depth - 1) = .ok () := by
  cases node with
  | list items break? =>
    obtain ⟨inner, henter, hitems, -⟩ := (check_list_eq_ok_iff _ _ _).mp h
    exact enter_eq_ok henter ▸ check_of_mem_items hitems part (mem_of_lookup_zip hpart)
  | object members break? =>
    obtain ⟨inner, henter, hmembers, -⟩ := (check_object_eq_ok_iff _ _ _).mp h
    exact enter_eq_ok henter ▸ (check_of_mem_members hmembers _ (mem_of_lastMember? hpart)).2
  | _ => cases hpart

mutual

/-- What can be read can be passed over. -/
theorem skip_of_check (depth : Nat) (node : Node) (h : node.check depth = .ok ()) :
    node.skip = .ok () := by
  cases node with
  | list items break? =>
    obtain ⟨inner, -, hitems, rfl⟩ := (check_list_eq_ok_iff _ _ _).mp h
    simp only [skip, skipItems_of_check inner items hitems]
    rfl
  | object members break? =>
    obtain ⟨inner, -, hmembers, rfl⟩ := (check_object_eq_ok_iff _ _ _).mp h
    simp only [skip, skipMembers_of_check inner members hmembers]
    rfl
  | broken b => cases h
  | null | bool | number | text => rfl

theorem skipItems_of_check (depth : Nat) (items : List Node)
    (h : checkItems depth items = .ok ()) : skipItems items = .ok () := by
  cases items with
  | nil => rfl
  | cons item items =>
    obtain ⟨hitem, hitems⟩ := (checkItems_cons_eq_ok_iff _ _ _).mp h
    simp only [skipItems, skip_of_check depth item hitem, skipItems_of_check depth items hitems]
    rfl

theorem skipMembers_of_check (depth : Nat) (members : List (Except Fault String × Node))
    (h : checkMembers depth members = .ok ()) : skipMembers members = .ok () := by
  cases members with
  | nil => rfl
  | cons member members =>
    obtain ⟨written, node⟩ := member
    obtain ⟨-, hnode, hmembers⟩ := (checkMembers_cons_eq_ok_iff _ _ _ _).mp h
    simp only [skipMembers, skip_of_check depth node hnode,
      skipMembers_of_check depth members hmembers]
    rfl

end

end Node

/-! ## Shapes of records -/

/-- A node that can have parts of the given names: an object that repeats none of them, or a list
without a further item. -/
def Node.Shaped (names : List String) : Node → Prop
  | .list items _ => items.length ≤ names.length
  | .object members _ =>
    members.Pairwise fun m n => ∀ name ∈ names, m.1 = .ok name → n.1 ≠ .ok name
  | _ => False

theorem lastMember?_of_mem {name : String} {part : Node}
    {members : List (Except Fault String × Node)} (h : (.ok name, part) ∈ members)
    (honce : members.Pairwise fun m n => m.1 = .ok name → n.1 ≠ .ok name) :
    lastMember? name members = some part := by
  induction members with
  | nil => cases h
  | cons first members ih =>
    obtain ⟨hfirst, honce⟩ := List.pairwise_cons.mp honce
    rcases List.mem_cons.mp h with rfl | hmem
    · exact lastMember?_cons_self (lastMember?_eq_none fun other hother =>
        hfirst (.ok name, other) hother rfl rfl)
    · rw [lastMember?, ih hmem honce, Option.some_or]

/-- No part stands beside another one of its name. -/
theorem Node.Shaped.hasPart_iff {names : List String} {name : String} {node part : Node}
    (h : node.Shaped names) (hname : name ∈ names) :
    node.HasPart names name part ↔ node.part? names name = some part := by
  cases node with
  | list items break? => rfl
  | object members break? =>
    exact ⟨fun hmem => lastMember?_of_mem hmem (List.Pairwise.imp (fun hmn => hmn name hname) h),
      mem_of_lastMember?⟩
  | _ => exact h.elim

/-- The field is put in place from its part, or may do without one. -/
def Field.Fillable {σ : Type} (f : Field σ) (depth : Nat) : Option Node → Prop
  | some node => ∀ s, ∃ s', f.put depth node s = .ok s'
  | none => f.required = false

theorem Given.needed_fillable {σ α : Type} {decode : Decoder α} {set : α → σ → σ} {default a : α}
    {depth : Nat} {part : Option Node} (name : String)
    (h : Given decode true default depth part a) :
    (Field.needed name decode set).Fillable depth part := by
  obtain ⟨node, rfl, hnode⟩ := h.exists_part
  exact fun s => ⟨set a s, (Field.needed_put_eq_ok_iff name).mpr ⟨a, hnode, rfl⟩⟩

theorem Given.defaulted_fillable {σ α : Type} {decode : Decoder α} {set : α → σ → σ}
    {default a : α} {depth : Nat} {part : Option Node} (name : String)
    (h : Given decode false default depth part a) :
    (Field.defaulted name decode set).Fillable depth part := by
  rcases h.cases with ⟨rfl, -, -⟩ | ⟨node, rfl, hnode⟩
  · rfl
  · exact fun s => ⟨set a s, (Field.needed_put_eq_ok_iff name).mpr ⟨a, hnode, rfl⟩⟩

namespace Record

variable {σ : Type} {r : Record σ}

/-! ### Lists -/

theorem length_le_of_readItems {depth : Nat} {break? : Option Break} {s' : σ}
    (fields : List (Field σ)) (index : Nat) (nodes : List Node) (s : σ)
    (h : r.readItems depth break? index fields nodes s = .ok s') :
    nodes.length ≤ fields.length := by
  induction fields generalizing index nodes s with
  | nil =>
    cases nodes with
    | nil => exact Nat.le_refl 0
    | cons node nodes => simp [readItems] at h
  | cons f fields ih =>
    cases nodes with
    | nil => exact Nat.zero_le _
    | cons node nodes =>
      simp only [readItems, bind_eq_ok_iff] at h
      obtain ⟨s₁, -, h⟩ := h
      exact Nat.succ_le_succ (ih _ nodes s₁ h)

/-- Items that fill their fields, in a list that is closed. -/
theorem exists_readItems {depth : Nat} (fields : List (Field σ))
    (hnodup : (fields.map Field.name).Nodup) (nodes : List Node)
    (hlength : nodes.length ≤ fields.length)
    (hfill : ∀ f ∈ fields, f.Fillable depth (((fields.map Field.name).zip nodes).lookup f.name))
    (index : Nat) (s : σ) : ∃ s', r.readItems depth none index fields nodes s = .ok s' := by
  induction fields generalizing nodes index s with
  | nil =>
    obtain rfl := List.eq_nil_of_length_eq_zero (Nat.le_zero.mp hlength)
    exact ⟨s, rfl⟩
  | cons f fields ih =>
    rw [List.map_cons, List.nodup_cons] at hnodup
    obtain ⟨hfirst, hrest⟩ := List.forall_mem_cons.mp hfill
    cases nodes with
    | nil =>
      have hoptional : f.required = false := by simpa [Field.Fillable] using hfirst
      obtain ⟨s', hread⟩ := ih hnodup.2 [] (Nat.zero_le _)
        (fun g hg => by simpa using hrest g hg) (index + 1) s
      exact ⟨s', by simp [readItems, stopAt, hoptional, hread, bind, Except.bind]⟩
    | cons node nodes =>
      rw [List.map_cons, List.zip_cons_cons] at hfirst hrest
      have hput : ∀ s, ∃ s₁, f.put depth node s = .ok s₁ := by
        simpa [Field.Fillable] using hfirst
      obtain ⟨s₁, hput⟩ := hput s
      obtain ⟨s', hread⟩ := ih hnodup.2 nodes (Nat.le_of_succ_le_succ hlength)
        (fun g hg => by
          have hne : g.name ≠ f.name := fun hname =>
            hnodup.1 (hname ▸ List.mem_map_of_mem hg)
          simpa [List.lookup_cons, beq_false_of_ne hne] using hrest g hg) (index + 1) s₁
      exact ⟨s', by rw [readItems, bind_eq_ok_iff]; exact ⟨s₁, hput, hread⟩⟩

/-! ### Objects -/

theorem pairwise_of_readMembers {depth : Nat} {out : List String × σ}
    (members : List (Except Fault String × Node)) (seen : List String) (s : σ)
    (h : r.readMembers depth seen members s = .ok out) :
    members.Pairwise fun m n => ∀ name ∈ r.names, m.1 = .ok name → n.1 ≠ .ok name := by
  induction members generalizing seen s with
  | nil => exact .nil
  | cons member members ih =>
    obtain ⟨written, node⟩ := member
    obtain ⟨key, rfl, ⟨hother, hread⟩ | ⟨f, -, -, -, s₁, -, hread⟩⟩ := readMembers_cons h
    · refine List.pairwise_cons.mpr ⟨fun n _ name hname hkey => ?_, ih seen s hread⟩
      cases hkey
      exact absurd hname hother
    · refine List.pairwise_cons.mpr ⟨?_, ih (key :: seen) s₁ hread⟩
      rintro ⟨written, part⟩ hn name hname hkey rfl
      cases hkey
      exact (readMembers_unique hname members _ s₁ hread).1 List.mem_cons_self part hn

/-- Members that fill their fields, each at most once. All of these fields are seen. -/
theorem exists_readMembers {depth : Nat} (members : List (Except Fault String × Node))
    (hcheck : Node.checkMembers depth members = .ok ())
    (honce : members.Pairwise fun m n => ∀ name ∈ r.names, m.1 = .ok name → n.1 ≠ .ok name)
    (hfill : ∀ f ∈ r.fields, ∀ part, (.ok f.name, part) ∈ members →
      ∀ s, ∃ s', f.put depth part s = .ok s') (seen : List String)
    (hseen : ∀ name ∈ seen, ∀ part, (.ok name, part) ∉ members) (s : σ) :
    ∃ seen' s', r.readMembers depth seen members s = .ok (seen', s') ∧
      ∀ name ∈ r.names, name ∈ seen ∨ (∃ part, (.ok name, part) ∈ members) → name ∈ seen' := by
  induction members generalizing seen s with
  | nil => exact ⟨seen, s, rfl, by simp⟩
  | cons member members ih =>
    obtain ⟨written, node⟩ := member
    obtain ⟨⟨key, rfl⟩, hnode, hcheck⟩ := (Node.checkMembers_cons_eq_ok_iff _ _ _ _).mp hcheck
    obtain ⟨hfirst, honce⟩ := List.pairwise_cons.mp honce
    have hrest : ∀ f ∈ r.fields, ∀ part, (.ok f.name, part) ∈ members →
        ∀ s, ∃ s', f.put depth part s = .ok s' := fun f hf part hpart =>
      hfill f hf part (List.mem_cons_of_mem _ hpart)
    have hold : ∀ name ∈ seen, ∀ part, (.ok name, part) ∉ members := fun name hname part hpart =>
      hseen name hname part (List.mem_cons_of_mem _ hpart)
    cases hfind : r.fields.find? (·.name == key) with
    | none =>
      have hother : key ∉ r.names := by simpa using hfind
      obtain ⟨seen', s', hread, hall⟩ := ih hcheck honce hrest seen hold s
      refine ⟨seen', s', ?_, fun name hname => ?_⟩
      · simpa [readMembers, ofFault, hfind, Node.skip_of_check depth node hnode, bind,
          Except.bind] using hread
      · have hne : name ≠ key := fun h => hother (h ▸ hname)
        simpa [hne] using hall name hname
    | some f =>
      have hf : f ∈ r.fields := List.mem_of_find?_eq_some hfind
      have hkey : f.name = key := by simpa using List.find?_some hfind
      have hmem : key ∈ r.names := hkey ▸ List.mem_map_of_mem hf
      have hnew : key ∉ seen := fun h => hseen key h node List.mem_cons_self
      obtain ⟨s₁, hput⟩ := hfill f hf node (by simp [hkey]) s
      obtain ⟨seen', s', hread, hall⟩ := ih hcheck honce hrest (key :: seen)
        (List.forall_mem_cons.mpr
          ⟨fun part hpart => hfirst _ hpart key hmem rfl rfl, hold⟩) s₁
      refine ⟨seen', s', ?_, fun name hname => ?_⟩
      · simpa [readMembers, ofFault, hfind, hnew, hput, bind, Except.bind] using hread
      · have hseen' := hall name hname
        by_cases hne : name = key
        · exact fun _ => hseen' (.inl (by simp [hne]))
        · simpa [hne] using hseen'

/-! ### Both -/

theorem shaped_of_decode {depth : Nat} {node : Node} {s : σ} (h : r.decode depth node = .ok s) :
    node.Shaped r.names := by
  cases node with
  | list nodes break? =>
    simp only [decode, bind_eq_ok_iff] at h
    obtain ⟨_, -, hread⟩ := h
    simpa [Node.Shaped] using length_le_of_readItems _ _ _ _ hread
  | object members break? =>
    simp only [decode, bind_eq_ok_iff] at h
    obtain ⟨_, -, _, hread, -⟩ := h
    exact pairwise_of_readMembers members [] r.blank hread
  | _ => simp [decode] at h

/-- **A record of the right shape with parts that fill its fields can be decoded.** -/
theorem exists_decode (hnodup : r.names.Nodup) {depth : Nat} {node : Node}
    (hcheck : node.check depth = .ok ()) (hshaped : node.Shaped r.names)
    (hfill : ∀ f ∈ r.fields, f.Fillable (depth - 1) (node.part? r.names f.name)) :
    ∃ s, r.decode depth node = .ok s := by
  cases node with
  | list nodes break? =>
    obtain ⟨inner, henter, -, rfl⟩ := (Node.check_list_eq_ok_iff _ _ _).mp hcheck
    rw [← enter_eq_ok henter] at hfill
    obtain ⟨s, hread⟩ := exists_readItems (r := r) r.fields hnodup nodes
      (by simpa [Node.Shaped] using hshaped) hfill 0 r.blank
    exact ⟨s, by rw [decode, bind_eq_ok_iff]; exact ⟨inner, henter, hread⟩⟩
  | object members break? =>
    obtain ⟨inner, henter, hmembers, rfl⟩ := (Node.check_object_eq_ok_iff _ _ _).mp hcheck
    rw [← enter_eq_ok henter] at hfill
    have hput : ∀ f ∈ r.fields, ∀ part, (.ok f.name, part) ∈ members →
        ∀ s, ∃ s', f.put inner part s = .ok s' := by
      intro f hf part hpart
      have hlast := (Node.Shaped.hasPart_iff hshaped (List.mem_map_of_mem hf)).mp hpart
      have hfilled := hfill f hf
      rwa [hlast] at hfilled
    obtain ⟨seen, s, hread, hall⟩ :=
      exists_readMembers members hmembers hshaped hput [] (by simp) r.blank
    have hnone : r.fields.find? (fun field => field.required && !seen.contains field.name) =
        none := by
      refine List.find?_eq_none.mpr fun f hf => ?_
      cases hlast : lastMember? f.name members with
      | none =>
        have hfilled := hfill f hf
        rw [Node.part?, hlast] at hfilled
        simp [show f.required = false from hfilled]
      | some part =>
        simp [hall f.name (List.mem_map_of_mem hf) (.inr ⟨part, mem_of_lastMember? hlast⟩)]
    refine ⟨s, ?_⟩
    simp only [decode, henter, hread, stopAt, bind, Except.bind, hnone]
    rfl
  | _ => exact hshaped.elim

end Record

end BlockStage.Json
