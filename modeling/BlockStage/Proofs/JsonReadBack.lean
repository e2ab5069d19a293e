import BlockStage.Json.Decode
import BlockStage.Proofs.JsonScalars

/-!
Reading back what is written. The compact text of a value is read as the tree of that value, to the
end, with the fuel that the length of the text gives. Floats are left out: their text need not be
read as the same float.
-/

namespace BlockStage.Json

/-! ## Trees -/

mutual

/-- The tree of the text of a value. -/
def tree : Json → Node
  | null => .null
  | bool b => .bool b
  | integer n => .number (.ok (.integer n))
  | number x => .number (.ok (.float x))
  | text s => .text (.ok s)
  | list items => .list (itemTrees items) none
  | object members => .object (memberTrees members) none

def itemTrees : List Json → List Node
  | [] => []
  | item :: items => tree item :: itemTrees items

def memberTrees : List (String × Json) → List (Except Fault String × Node)
  | [] => []
  | (key, value) :: members => (.ok key, tree value) :: memberTrees members

end

mutual

/-- The value holds no floats, and its whole numbers fit 64 bits. -/
def Exact : Json → Prop
  | integer n => Fits n
  | number _ => False
  | list items => ExactItems items
  | object members => ExactMembers members
  | _ => True

def ExactItems : List Json → Prop
  | [] => True
  | item :: items => Exact item ∧ ExactItems items

def ExactMembers : List (String × Json) → Prop
  | [] => True
  | (_, value) :: members => Exact value ∧ ExactMembers members

end

theorem itemTrees_eq_map (items : List Json) : itemTrees items = items.map tree := by
  induction items with
  | nil => rfl
  | cons item items ih => rw [itemTrees, ih, List.map_cons]

theorem exactItems_iff (items : List Json) : ExactItems items ↔ ∀ item ∈ items, Exact item := by
  induction items with
  | nil => simp [ExactItems]
  | cons item items ih => simp [ExactItems, ih]

/-! ## Parts between commas -/

/-- Characters of parts with commas between them. -/
def joined (parts : List String) : List Char := (",".intercalate parts).toList

theorem joined_singleton (part : String) : joined [part] = part.toList := by
  simp [joined]

theorem joined_cons_cons (part next : String) (parts : List String) :
    joined (part :: next :: parts) = part.toList ++ ',' :: joined (next :: parts) := by
  simp [joined, String.toList_intercalate]

/-- What can follow a value inside a list or an object, or at the end. -/
def Closes (rest : List Char) : Prop :=
  ∀ c, rest.head? = some c → c = ',' ∨ c = ']' ∨ c = '\x7d'

theorem Closes.endsNumber {rest : List Char} (h : Closes rest) : EndsNumber rest := by
  intro c hc
  rcases h c hc with rfl | rfl | rfl <;> decide

theorem exists_cons_compact (j : Json) (hj : j.Exact) :
    ∃ c cs, j.compact.toList = c :: cs ∧ opensValue c = true := by
  cases j with
  | null => exact ⟨'n', "ull".toList, rfl, by decide⟩
  | bool b =>
    cases b
    · exact ⟨'f', "alse".toList, rfl, by decide⟩
    · exact ⟨'t', "rue".toList, rfl, by decide⟩
  | integer n =>
    cases n with
    | ofNat n =>
      obtain ⟨d, ds, hds, hd⟩ := exists_digit_cons n
      refine ⟨d, ds, ?_, opensValue_of_isDigit hd⟩
      rw [compact, toList_toString_ofNat, hds]
    | negSucc n =>
      refine ⟨'-', Nat.toDigits 10 (n + 1), ?_, by decide⟩
      rw [compact, toList_toString_negSucc]
  | number x => exact hj.elim
  | text s => exact ⟨'"', _, toList_quoteText s, by decide⟩
  | list items =>
    refine ⟨'[', joined (compactItems items) ++ [']'], ?_, by decide⟩
    simp [compact, joined]
  | object members =>
    refine ⟨'\x7b', joined (compactMembers members) ++ ['\x7d'], ?_, by decide⟩
    simp [compact, joined]

theorem nextItem_close (rest : List Char) : nextItem (']' :: rest) = .closed rest := by
  rw [nextItem, skipBlanks_of_not_blank (by decide)]
  rfl

theorem nextItem_comma {c : Char} (hc : opensValue c = true) (cs : List Char) :
    nextItem (',' :: c :: cs) = .more (c :: cs) := by
  have hclose : c ≠ ']' := by
    rintro rfl
    exact absurd hc (by decide)
  rw [nextItem, skipBlanks_of_not_blank (by decide)]
  simp only [skipBlanks_of_opensValue hc]
  split
  · next h => cases h
  · next h => exact absurd (List.cons.inj h).1 hclose
  · rfl

theorem nextMember_close (rest : List Char) : nextMember ('\x7d' :: rest) = .closed rest := by
  rw [nextMember, skipBlanks_of_not_blank (by decide)]
  rfl

theorem nextMember_comma (cs : List Char) :
    nextMember (',' :: '"' :: cs) = .more ('"' :: cs) := by
  rw [nextMember, skipBlanks_of_not_blank (by decide)]
  simp only [skipBlanks_of_not_blank (show isJsonBlank '"' = false by decide)]
  rfl

theorem readNode_list (fuel : Nat) {c : Char} (hc : opensValue c = true) (cs : List Char) :
    readNode (fuel + 1) ('[' :: c :: cs) =
      (.list (readItems fuel (c :: cs)).1 (readItems fuel (c :: cs)).2.1,
        (readItems fuel (c :: cs)).2.2) := by
  have hclose : c ≠ ']' := by
    rintro rfl
    exact absurd hc (by decide)
  rw [readNode, skipBlanks_of_not_blank (by decide)]
  simp only [skipBlanks_of_opensValue hc]
  split
  · next h => exact absurd (List.cons.inj h).1 hclose
  · next h => cases h
  · rfl

theorem readNode_object (fuel : Nat) (cs : List Char) :
    readNode (fuel + 1) ('\x7b' :: '"' :: cs) =
      (.object (readMembers fuel ('"' :: cs)).1 (readMembers fuel ('"' :: cs)).2.1,
        (readMembers fuel ('"' :: cs)).2.2) := by
  rw [readNode, skipBlanks_of_not_blank (by decide)]
  simp only [skipBlanks_of_not_blank (show isJsonBlank '"' = false by decide)]
  rfl

/-! ## Reading what is written -/

theorem toList_compact_list (items : List Json) :
    (list items).compact.toList = '[' :: (joined (compactItems items) ++ [']']) := by
  simp [compact, joined]

theorem toList_compact_object (members : List (String × Json)) :
    (object members).compact.toList = '\x7b' :: (joined (compactMembers members) ++ ['\x7d']) := by
  simp [compact, joined]

theorem exists_cons_joined_items {item : Json} (hitem : item.Exact) (items : List Json) :
    ∃ c cs, joined (compactItems (item :: items)) = c :: cs ∧ opensValue c = true := by
  obtain ⟨c, cs, htext, hc⟩ := exists_cons_compact item hitem
  cases items with
  | nil => exact ⟨c, cs, by rw [compactItems, compactItems, joined_singleton, htext], hc⟩
  | cons next items =>
    refine ⟨c, cs ++ ',' :: joined (compactItems (next :: items)), ?_, hc⟩
    rw [compactItems, compactItems, joined_cons_cons, htext]
    rfl

theorem exists_cons_joined_members (key : String) (value : Json) (members : List (String × Json)) :
    ∃ cs, joined (compactMembers ((key, value) :: members)) = '"' :: cs := by
  cases members with
  | nil =>
    rw [compactMembers, compactMembers, joined_singleton, String.toList_append,
      String.toList_append, toList_quoteText]
    exact ⟨_, rfl⟩
  | cons next members =>
    obtain ⟨nextKey, nextValue⟩ := next
    rw [compactMembers, compactMembers, joined_cons_cons, String.toList_append,
      String.toList_append, toList_quoteText]
    exact ⟨_, rfl⟩

theorem toList_member (key : String) (value : Json) :
    (quoteText key ++ ":" ++ value.compact).toList =
      (quoteText key).toList ++ ':' :: value.compact.toList := by
  simp

/-! One item or member, and the rest of its list or object if there is more. -/

theorem readItems_last {fuel : Nat} {cs rest : List Char} {node : Node}
    (hread : readNode fuel cs = (node, ']' :: rest)) :
    readItems (fuel + 1) cs = ([node], none, rest) := by
  rw [readItems, hread]
  simp only [nextItem_close]

theorem readItems_more {fuel : Nat} {cs next rest : List Char} {node : Node} {nodes : List Node}
    {c : Char} (hc : opensValue c = true) (hread : readNode fuel cs = (node, ',' :: c :: next))
    (hnext : readItems fuel (c :: next) = (nodes, none, rest)) :
    readItems (fuel + 1) cs = (node :: nodes, none, rest) := by
  rw [readItems, hread]
  simp only [nextItem_comma hc, hnext]

theorem readMembers_last {fuel : Nat} {key : String} {cs rest : List Char} {node : Node}
    (hread : readNode fuel cs = (node, '\x7d' :: rest)) :
    readMembers (fuel + 1) ((quoteText key).toList ++ ':' :: cs) =
      ([(.ok key, node)], none, rest) := by
  rw [toList_quoteText, List.cons_append, List.append_assoc, readMembers]
  simp only [List.singleton_append, readQuoted_quoteText,
    skipBlanks_of_not_blank (show isJsonBlank ':' = false by decide), hread, nextMember_close]

theorem readMembers_more {fuel : Nat} {key : String} {cs next rest : List Char} {node : Node}
    {members : List (Except Fault String × Node)}
    (hread : readNode fuel cs = (node, ',' :: '"' :: next))
    (hnext : readMembers fuel ('"' :: next) = (members, none, rest)) :
    readMembers (fuel + 1) ((quoteText key).toList ++ ':' :: cs) =
      ((.ok key, node) :: members, none, rest) := by
  rw [toList_quoteText, List.cons_append, List.append_assoc, readMembers]
  simp only [List.singleton_append, readQuoted_quoteText,
    skipBlanks_of_not_blank (show isJsonBlank ':' = false by decide), hread, nextMember_comma,
    hnext]

section

variable (fuel : Nat)

/-- With so much fuel, values are read whose texts are no longer than half of it. -/
def ReadsNodes : Prop :=
  ∀ j : Json, j.Exact → 2 * j.compact.toList.length ≤ fuel → ∀ rest, Closes rest →
    readNode fuel (j.compact.toList ++ rest) = (j.tree, rest)

def ReadsItems : Prop :=
  ∀ item items, ExactItems (item :: items) →
    2 * (joined (compactItems (item :: items))).length + 1 ≤ fuel → ∀ rest,
      readItems fuel (joined (compactItems (item :: items)) ++ ']' :: rest) =
        (itemTrees (item :: items), none, rest)

def ReadsMembers : Prop :=
  ∀ key value members, ExactMembers ((key, value) :: members) →
    2 * (joined (compactMembers ((key, value) :: members))).length + 1 ≤ fuel → ∀ rest,
      readMembers fuel (joined (compactMembers ((key, value) :: members)) ++ '\x7d' :: rest) =
        (memberTrees ((key, value) :: members), none, rest)

end

variable {fuel : Nat}

theorem readsNodes_succ (hitems : ReadsItems fuel) (hmembers : ReadsMembers fuel) :
    ReadsNodes (fuel + 1) := by
  intro j hj hfuel rest hrest
  cases j with
  | null => rfl
  | bool b => cases b <;> rfl
  | integer n => exact readNode_integer hj fuel hrest.endsNumber
  | number x => exact hj.elim
  | text s => exact readNode_text s fuel rest
  | list items =>
    rw [toList_compact_list, List.length_cons, List.length_append] at hfuel
    rw [toList_compact_list, List.cons_append, List.append_assoc, List.singleton_append]
    cases items with
    | nil => rfl
    | cons item items =>
      obtain ⟨c, cs, htext, hc⟩ := exists_cons_joined_items hj.1 items
      have hread := hitems item items hj (by omega) rest
      rw [htext, List.cons_append] at hread ⊢
      rw [readNode_list fuel hc, hread, tree]
  | object members =>
    rw [toList_compact_object, List.length_cons, List.length_append] at hfuel
    rw [toList_compact_object, List.cons_append, List.append_assoc, List.singleton_append]
    cases members with
    | nil => rfl
    | cons member members =>
      obtain ⟨key, value⟩ := member
      obtain ⟨cs, htext⟩ := exists_cons_joined_members key value members
      have hread := hmembers key value members hj (by omega) rest
      rw [htext, List.cons_append] at hread ⊢
      rw [readNode_object, hread, tree]

theorem readsItems_succ (hnodes : ReadsNodes fuel) (hitems : ReadsItems fuel) :
    ReadsItems (fuel + 1) := by
  intro item items hexact hfuel rest
  cases items with
  | nil =>
    rw [compactItems, compactItems, joined_singleton] at hfuel ⊢
    exact readItems_last (hnodes item hexact.1 (by omega) _ (by simp [Closes]))
  | cons next items =>
    obtain ⟨c, cs, htext, hc⟩ := exists_cons_joined_items hexact.2.1 items
    have hjoined : joined (compactItems (item :: next :: items)) =
        item.compact.toList ++ ',' :: joined (compactItems (next :: items)) := by
      rw [compactItems, compactItems, joined_cons_cons]
    rw [hjoined, List.length_append, List.length_cons] at hfuel
    have hnext := hitems next items hexact.2 (by omega) rest
    rw [hjoined, List.append_assoc, List.cons_append]
    rw [htext, List.cons_append] at hnext ⊢
    exact readItems_more hc (hnodes item hexact.1 (by omega) _ (by simp [Closes])) hnext

theorem readsMembers_succ (hnodes : ReadsNodes fuel) (hmembers : ReadsMembers fuel) :
    ReadsMembers (fuel + 1) := by
  intro key value members hexact hfuel rest
  cases members with
  | nil =>
    rw [compactMembers, compactMembers, joined_singleton, toList_member] at hfuel ⊢
    rw [List.length_append, List.length_cons] at hfuel
    rw [List.append_assoc, List.cons_append]
    exact readMembers_last (hnodes value hexact.1 (by omega) _ (by simp [Closes]))
  | cons next members =>
    obtain ⟨nextKey, nextValue⟩ := next
    obtain ⟨cs, htext⟩ := exists_cons_joined_members nextKey nextValue members
    have hjoined : joined (compactMembers ((key, value) :: (nextKey, nextValue) :: members)) =
        (quoteText key).toList ++ ':' :: (value.compact.toList ++
          ',' :: joined (compactMembers ((nextKey, nextValue) :: members))) := by
      rw [compactMembers, compactMembers, joined_cons_cons, toList_member, List.append_assoc,
        List.cons_append]
    rw [hjoined, List.length_append, List.length_cons, List.length_append,
      List.length_cons] at hfuel
    have hnext := hmembers nextKey nextValue members hexact.2 (by omega) rest
    rw [hjoined, List.append_assoc, List.cons_append, List.append_assoc, List.cons_append]
    rw [htext, List.cons_append] at hnext ⊢
    exact readMembers_more (hnodes value hexact.1 (by omega) _ (by simp [Closes])) hnext

theorem reads_compact (fuel : Nat) : ReadsNodes fuel ∧ ReadsItems fuel ∧ ReadsMembers fuel := by
  induction fuel with
  | zero =>
    refine ⟨fun j hj hfuel => ?_, fun _ _ _ hfuel => ?_, fun _ _ _ _ hfuel => ?_⟩
    · obtain ⟨c, cs, htext, _⟩ := exists_cons_compact j hj
      rw [htext, List.length_cons] at hfuel
      omega
    · omega
    · omega
  | succ fuel ih =>
    obtain ⟨hnodes, hitems, hmembers⟩ := ih
    exact ⟨readsNodes_succ hitems hmembers, readsItems_succ hnodes hitems,
      readsMembers_succ hnodes hmembers⟩

/-- **Reading back what is written.** The text of a value without floats is read as the tree of
that value, and nothing is left over. -/
theorem ofText_compact (j : Json) (hj : j.Exact) : Source.ofText j.compact = ⟨j.tree, []⟩ := by
  have hread := (reads_compact (2 * j.compact.toList.length + 1)).1 j hj (by omega) []
    (by simp [Closes])
  rw [List.append_nil] at hread
  rw [Source.ofText]
  simp only [hread]

/-- A text of such a value is decoded as its tree is. -/
theorem decodeText_compact {α : Type} (decode : Decoder α) (j : Json) (hj : j.Exact) :
    decodeText decode j.compact = decode depthLimit j.tree := by
  rw [decodeText, ofText_compact j hj]
  cases decode depthLimit j.tree <;> rfl

end BlockStage.Json
