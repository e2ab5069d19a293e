import BlockStage.Json.Basic

/-!
The indented text of a value, line by line. What stands between brackets stands on lines of its own,
two spaces further in, and a comma follows every part but the last.
-/

namespace BlockStage.Json

/-! ## Lines -/

/-- Lines with a comma after the last. -/
def followedByComma : List String → List String
  | [] => []
  | [line] => [line ++ ","]
  | line :: next :: lines => line :: followedByComma (next :: lines)

/-- The lines of all parts, with commas between the parts. -/
def separated : List (List String) → List String
  | [] => []
  | [part] => part
  | part :: next :: parts => followedByComma part ++ separated (next :: parts)

/-- Parts between brackets. Empty brackets take one line. -/
def enclosed (opening closing : String) (parts : List (List String)) : List String :=
  if parts.isEmpty then [opening ++ closing]
  else opening :: (separated parts).map ("  " ++ ·) ++ [closing]

/-- Lines with a key before the first. -/
def keyed (key : String) : List String → List String
  | [] => []
  | line :: lines => (quoteText key ++ ": " ++ line) :: lines

mutual

def lines : Json → List String
  | list items => enclosed "[" "]" (itemLines items)
  | object members => enclosed "\x7b" "\x7d" (memberLines members)
  | scalar => [compact scalar]

def itemLines : List Json → List (List String)
  | [] => []
  | item :: items => lines item :: itemLines items

def memberLines : List (String × Json) → List (List String)
  | [] => []
  | (key, value) :: members => keyed key (lines value) :: memberLines members

end

variable {part : List String} {parts : List (List String)}

theorem followedByComma_ne_nil (h : part ≠ []) : followedByComma part ≠ [] := by
  induction part using followedByComma.induct with
  | case1 => exact absurd rfl h
  | case2 line => simp [followedByComma]
  | case3 line next lines ih => simp [followedByComma]

theorem separated_ne_nil (h : parts ≠ []) (hparts : ∀ part ∈ parts, part ≠ []) :
    separated parts ≠ [] := by
  induction parts using separated.induct with
  | case1 => exact absurd rfl h
  | case2 part => exact hparts part (by simp)
  | case3 part next parts ih =>
    rw [separated]
    exact List.append_ne_nil_of_left_ne_nil (followedByComma_ne_nil (hparts part (by simp))) _

theorem keyed_ne_nil (key : String) (h : part ≠ []) : keyed key part ≠ [] := by
  cases part with
  | nil => exact absurd rfl h
  | cons line lines => simp [keyed]

theorem lines_ne_nil (j : Json) : j.lines ≠ [] := by
  cases j <;> simp [lines, enclosed]
  all_goals split <;> simp

theorem ne_nil_of_mem_itemLines (items : List Json) : ∀ part ∈ itemLines items, part ≠ [] := by
  induction items with
  | nil => simp [itemLines]
  | cons item items ih => simpa [itemLines, lines_ne_nil] using ih

theorem ne_nil_of_mem_memberLines (members : List (String × Json)) :
    ∀ part ∈ memberLines members, part ≠ [] := by
  induction members with
  | nil => simp [memberLines]
  | cons entry members ih =>
    simpa [memberLines, keyed_ne_nil entry.1 (lines_ne_nil entry.2)] using ih

/-! ## Their text -/

variable {separator : String} {depth : Nat}

theorem newline_succ (depth : Nat) : newline (depth + 1) = newline depth ++ "  " := by
  have hspace (n : Nat) : "".pushn ' ' (n + 1) = "".pushn ' ' n ++ " " := rfl
  have hspaces : "  " = " " ++ " " := rfl
  rw [newline, newline, Nat.mul_add_one, hspace (2 * depth + 1), hspace, hspaces]
  simp only [String.append_assoc]

theorem intercalate_followedByComma (h : part ≠ []) :
    separator.intercalate (followedByComma part) = separator.intercalate part ++ "," := by
  induction part using followedByComma.induct with
  | case1 => exact absurd rfl h
  | case2 line => simp [followedByComma]
  | case3 line next lines ih =>
    rw [followedByComma, String.intercalate_cons_of_ne_nil (followedByComma_ne_nil (by simp)),
      ih (by simp), String.intercalate_cons_cons]
    simp only [String.append_assoc]

theorem intercalate_separated (hparts : ∀ part ∈ parts, part ≠ []) :
    separator.intercalate (separated parts) =
      ("," ++ separator).intercalate (parts.map separator.intercalate) := by
  induction parts using separated.induct with
  | case1 => simp [separated]
  | case2 part => simp [separated]
  | case3 part next parts ih =>
    obtain ⟨hpart, hrest⟩ := List.forall_mem_cons.mp hparts
    rw [separated, String.intercalate_append_of_ne_nil (followedByComma_ne_nil hpart)
      (separated_ne_nil (by simp) hrest), intercalate_followedByComma hpart, ih hrest]
    simp [String.append_assoc]

/-- Each further space stands behind the break before its line. -/
theorem newline_append_intercalate (h : part ≠ []) :
    newline depth ++ (newline depth).intercalate (part.map ("  " ++ ·)) =
      newline (depth + 1) ++ (newline (depth + 1)).intercalate part := by
  induction part using followedByComma.induct with
  | case1 => exact absurd rfl h
  | case2 line => simp [newline_succ, String.append_assoc]
  | case3 line next lines ih =>
    calc newline depth ++ (newline depth).intercalate ((line :: next :: lines).map ("  " ++ ·))
        = newline depth ++ "  " ++ line ++
            (newline depth ++ (newline depth).intercalate ((next :: lines).map ("  " ++ ·))) := by
          simp only [List.map_cons, String.intercalate_cons_cons, String.append_assoc]
      _ = newline (depth + 1) ++ (newline (depth + 1)).intercalate (line :: next :: lines) := by
          rw [ih (by simp), ← newline_succ, String.intercalate_cons_cons]
          simp only [String.append_assoc]

theorem intercalate_keyed (key : String) (h : part ≠ []) :
    separator.intercalate (keyed key part) =
      quoteText key ++ ": " ++ separator.intercalate part := by
  cases part with
  | nil => exact absurd rfl h
  | cons line lines => rw [keyed, String.intercalate_cons_append]

theorem intercalate_enclosed (opening closing : String) (hparts : ∀ part ∈ parts, part ≠ []) :
    (newline depth).intercalate (enclosed opening closing parts) =
      bracketed opening closing depth (parts.map (newline (depth + 1)).intercalate) := by
  by_cases h : parts = []
  · simp [h, enclosed, bracketed]
  · have hlines := separated_ne_nil h hparts
    have hparts_empty : parts.isEmpty = false := by simpa using h
    calc (newline depth).intercalate (enclosed opening closing parts)
        = opening ++ (newline depth ++
            (newline depth).intercalate ((separated parts).map ("  " ++ ·))) ++
              newline depth ++ closing := by
          rw [enclosed, if_neg (by simp [hparts_empty]),
            String.intercalate_append_of_ne_nil (by simp) (by simp),
            String.intercalate_cons_of_ne_nil (by simpa using hlines),
            String.intercalate_singleton]
          simp only [String.append_assoc]
      _ = bracketed opening closing depth (parts.map (newline (depth + 1)).intercalate) := by
          rw [newline_append_intercalate hlines, intercalate_separated hparts, bracketed,
            if_neg (by simp [hparts_empty])]
          simp only [String.append_assoc]

mutual

theorem indentedAt_eq (depth : Nat) :
    ∀ j : Json, j.indentedAt depth = (newline depth).intercalate j.lines
  | list items => by
    rw [indentedAt, lines, intercalate_enclosed _ _ (ne_nil_of_mem_itemLines items),
      indentedItems_eq]
  | object members => by
    rw [indentedAt, lines, intercalate_enclosed _ _ (ne_nil_of_mem_memberLines members),
      indentedMembers_eq]
  | null | bool _ | integer _ | number _ | text _ => by
    simp [indentedAt, lines, compact]

theorem indentedItems_eq (depth : Nat) :
    ∀ items, indentedItems depth items = (itemLines items).map (newline depth).intercalate
  | [] => rfl
  | item :: items => by
    rw [indentedItems, itemLines, List.map_cons, indentedAt_eq, indentedItems_eq]

theorem indentedMembers_eq (depth : Nat) :
    ∀ members, indentedMembers depth members =
      (memberLines members).map (newline depth).intercalate
  | [] => rfl
  | (key, value) :: members => by
    rw [indentedMembers, memberLines, List.map_cons, indentedAt_eq, indentedMembers_eq,
      intercalate_keyed key (lines_ne_nil value)]

end

/-- **The indented text is its lines.** -/
theorem indented_eq (j : Json) : j.indented = "\n".intercalate j.lines := by
  rw [indented, indentedAt_eq]
  rfl

end BlockStage.Json
