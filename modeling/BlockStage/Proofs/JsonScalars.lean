import BlockStage.Json.Reader
import Mathlib.Data.List.TakeDrop

/-!
Reading back texts and whole numbers. Every character of a text survives its escape, quotes and
control characters among them. A whole number that fits 64 bits comes back as that number, if what
follows it does not go on with digits, a point or an exponent.
-/

namespace BlockStage.Json

/-! ## Texts -/

theorem hexUnit?_of_lt {n : Nat} (h : n < 0x20) :
    hexUnit? '0' '0' (Nat.digitChar (n / 16)) (Nat.digitChar (n % 16)) = some n := by
  have hall : ∀ m < 0x20,
      hexUnit? '0' '0' (Nat.digitChar (m / 16)) (Nat.digitChar (m % 16)) = some m := by decide
  exact hall n h

theorem readQuoted_plain {c : Char} (hquote : c ≠ '"') (hslash : c ≠ '\\')
    (hc : ¬ c.toNat < 0x20) (read cs : List Char) :
    readQuoted (.whole read) (c :: cs) = readQuoted (.whole (c :: read)) cs := by
  rw [readQuoted.eq_7 _ _ _ hquote (fun h => absurd h hslash) (fun _ _ _ _ _ h => absurd h hslash)
    (fun _ h => absurd h hslash) (fun _ _ h => absurd h hslash), if_neg hc, Progress.char]

/-- However a character is escaped, it is read back as one character. -/
theorem readQuoted_escapeChar (c : Char) (read cs : List Char) :
    readQuoted (.whole read) (escapeChar c ++ cs) = readQuoted (.whole (c :: read)) cs := by
  unfold escapeChar
  split
  case h_8 hquote hslash _ _ _ _ _ =>
    by_cases hc : c.toNat < 0x20
    · have hhigh : isHighSurrogate c.toNat = false := by
        simp [isHighSurrogate]
        omega
      have hlow : isLowSurrogate c.toNat = false := by
        simp [isLowSurrogate]
        omega
      rw [if_pos hc]
      simp [readQuoted, hexUnit?_of_lt hc, Progress.unit, hhigh, hlow, Char.ofNat_toNat]
    · rw [if_neg hc]
      exact readQuoted_plain hquote hslash hc read cs
  all_goals simp [readQuoted, simpleEscape?, Progress.char]

theorem readQuoted_escaped (cs read rest : List Char) :
    readQuoted (.whole read) (cs.flatMap escapeChar ++ '"' :: rest) =
      .closed (.ok (String.ofList (read.reverse ++ cs))) rest := by
  induction cs generalizing read with
  | nil => simp [readQuoted, Progress.contents]
  | cons c cs ih =>
    rw [List.flatMap_cons, List.append_assoc, readQuoted_escapeChar, ih]
    simp

theorem toList_quoteText (s : String) :
    (quoteText s).toList = '"' :: (s.toList.flatMap escapeChar ++ ['"']) := by
  simp [quoteText]

/-- A text is read back from between its quotes. -/
theorem readQuoted_quoteText (s : String) (rest : List Char) :
    readQuoted (.whole []) (s.toList.flatMap escapeChar ++ '"' :: rest) = .closed (.ok s) rest := by
  rw [readQuoted_escaped]
  simp

/-! ## Numbers -/

/-- What follows does not go on with a number. -/
def EndsNumber (rest : List Char) : Prop :=
  ∀ c, rest.head? = some c → c.isDigit = false ∧ c ≠ '.' ∧ isExponentLetter c = false

theorem span_digits {ds rest : List Char} (hds : ∀ c ∈ ds, c.isDigit = true)
    (hrest : EndsNumber rest) : (ds ++ rest).span Char.isDigit = (ds, rest) := by
  rw [List.span_eq_takeWhile_dropWhile, List.takeWhile_append_of_pos hds,
    List.dropWhile_append_of_pos hds]
  cases rest with
  | nil => simp
  | cons c rest =>
    have hc : c.isDigit = false := (hrest c rfl).1
    simp [hc]

/-- Only zero is written with a zero in front. -/
theorem toDigits_ne_zero_cons {n : Nat} (h : 0 < n) (ds : List Char) :
    Nat.toDigits 10 n ≠ '0' :: ds := by
  induction n using Nat.strongRecOn generalizing ds with
  | _ n ih =>
    by_cases hn : n < 10
    · rw [Nat.toDigits_of_lt_base hn]
      have hall : ∀ m < 10, 0 < m → Nat.digitChar m ≠ '0' := by decide
      intro heq
      exact hall n hn h (List.cons.inj heq).1
    · rw [Nat.toDigits_of_base_le (by decide) (by omega)]
      intro heq
      cases hd : Nat.toDigits 10 (n / 10) with
      | nil => exact Nat.toDigits_ne_nil hd
      | cons d rest =>
        rw [hd, List.cons_append, List.cons.injEq] at heq
        exact ih (n / 10) (by omega) (by omega) rest (by rw [hd, heq.1])

theorem ofDigits_toDigits (n : Nat) : Decimal.ofDigits (Nat.toDigits 10 n) = n :=
  Nat.ofDigitChars_toDigits (by decide) (by decide)

theorem readUnsigned_digits (negative : Bool) (n : Nat) {rest : List Char}
    (hrest : EndsNumber rest) :
    readUnsigned negative (Nat.toDigits 10 n ++ rest) =
      (.number (wholeValue negative (Nat.toDigits 10 n)), rest) := by
  have hdigits : ∀ c ∈ Nat.toDigits 10 n, c.isDigit = true :=
    fun c hc => Nat.isDigit_of_mem_toDigits (by decide) (by decide) hc
  have hletter : rest.head?.any isExponentLetter = false := by
    cases rest with
    | nil => rfl
    | cons c rest => exact (hrest c rfl).2.2
  unfold readUnsigned
  rw [span_digits hdigits hrest]
  dsimp only
  split
  · next hnil => exact absurd hnil Nat.toDigits_ne_nil
  · next d ds hzero =>
    have hpos : 0 < n := by
      refine Nat.pos_of_ne_zero fun hn => ?_
      simp [hn] at hzero
    exact absurd hzero (toDigits_ne_zero_cons hpos _)
  · next rest =>
    exact absurd rfl (hrest '.' rfl).2.1
  · rw [hletter]
    rfl

/-- Whole numbers that a text can hold without being taken for floats. -/
def Fits (n : Int) : Prop := -9223372036854775808 ≤ n ∧ n ≤ 18446744073709551615

theorem wholeValue_nonnegative {n : Nat} (h : n ≤ maxSignificand) :
    wholeValue false (Nat.toDigits 10 n) = .ok (.integer n) := by
  simp [wholeValue, ofDigits_toDigits, h]

theorem wholeValue_negative {n : Nat} (hpos : 0 < n) (h : n ≤ Decimal.twoPow 63) :
    wholeValue true (Nat.toDigits 10 n) = .ok (.integer (-n)) := by
  simp [wholeValue, ofDigits_toDigits, hpos, h]

/-! ## The start of a value -/

theorem skipBlanks_of_not_blank {c : Char} (hc : isJsonBlank c = false) (cs : List Char) :
    skipBlanks (c :: cs) = c :: cs := by
  simp [skipBlanks, hc]

theorem ne_of_isDigit {c d : Char} (hc : c.isDigit = true) (hd : d.isDigit = false) : c ≠ d := by
  rintro rfl
  rw [hc] at hd
  cases hd

/-- A character other than the blanks and the closing brackets. -/
def opensValue (c : Char) : Bool := !isJsonBlank c && c != ']' && c != '\x7d'

theorem opensValue_of_isDigit {c : Char} (hc : c.isDigit = true) : opensValue c = true := by
  simp [opensValue, isJsonBlank, ne_of_isDigit hc (show ' '.isDigit = false by decide),
    ne_of_isDigit hc (show '\n'.isDigit = false by decide),
    ne_of_isDigit hc (show '\t'.isDigit = false by decide),
    ne_of_isDigit hc (show '\r'.isDigit = false by decide),
    ne_of_isDigit hc (show ']'.isDigit = false by decide),
    ne_of_isDigit hc (show '\x7d'.isDigit = false by decide)]

theorem skipBlanks_of_opensValue {c : Char} (hc : opensValue c = true) (cs : List Char) :
    skipBlanks (c :: cs) = c :: cs := by
  have hblank : isJsonBlank c = false := by
    simp only [opensValue, Bool.and_eq_true, Bool.not_eq_true'] at hc
    exact hc.1.1
  exact skipBlanks_of_not_blank hblank cs

theorem readNode_digit (fuel : Nat) {c : Char} (hc : c.isDigit = true) (cs : List Char) :
    readNode (fuel + 1) (c :: cs) = readUnsigned false (c :: cs) := by
  rw [readNode, skipBlanks_of_opensValue (opensValue_of_isDigit hc)]
  split
  case h_1 heq => cases heq
  case h_9 heq =>
    obtain ⟨rfl, rfl⟩ := List.cons.inj heq
    rw [if_pos hc]
  -- the other characters that a value can start with are no digits
  all_goals
    next heq => exact absurd (List.cons.inj heq).1 (ne_of_isDigit hc (by decide))

theorem toList_toString_ofNat (n : Nat) : (toString (Int.ofNat n)).toList = Nat.toDigits 10 n :=
  String.toList_ofList

theorem toList_toString_negSucc (n : Nat) :
    (toString (Int.negSucc n)).toList = '-' :: Nat.toDigits 10 (n + 1) := by
  show ("-" ++ String.ofList (Nat.toDigits 10 (n + 1))).toList = _
  simp

theorem exists_digit_cons (n : Nat) :
    ∃ d ds, Nat.toDigits 10 n = d :: ds ∧ d.isDigit = true := by
  obtain ⟨d, ds, hds⟩ : ∃ d ds, Nat.toDigits 10 n = d :: ds :=
    List.exists_cons_of_ne_nil Nat.toDigits_ne_nil
  have hmem : d ∈ Nat.toDigits 10 n := by simp [hds]
  exact ⟨d, ds, hds, Nat.isDigit_of_mem_toDigits (by decide) (by decide) hmem⟩

theorem readNode_integer {n : Int} (hn : Fits n) (fuel : Nat) {rest : List Char}
    (hrest : EndsNumber rest) :
    readNode (fuel + 1) ((toString n).toList ++ rest) = (.number (.ok (.integer n)), rest) := by
  obtain ⟨hlow, hhigh⟩ := hn
  cases n with
  | ofNat n =>
    have hmax : n ≤ maxSignificand := Int.ofNat_le.mp hhigh
    obtain ⟨d, ds, hds, hd⟩ := exists_digit_cons n
    have hread := readUnsigned_digits false n hrest
    rw [wholeValue_nonnegative hmax, hds] at hread
    rw [toList_toString_ofNat, hds, List.cons_append, readNode_digit fuel hd]
    exact hread
  | negSucc n =>
    have hmax : n + 1 ≤ 9223372036854775808 := by omega
    have hread := readUnsigned_digits true (n + 1) hrest
    rw [wholeValue_negative (Nat.succ_pos n) hmax] at hread
    rw [toList_toString_negSucc, List.cons_append, readNode, skipBlanks_of_not_blank (by decide)]
    exact hread

theorem readNode_text (s : String) (fuel : Nat) (rest : List Char) :
    readNode (fuel + 1) ((quoteText s).toList ++ rest) = (.text (.ok s), rest) := by
  rw [toList_quoteText, List.cons_append, List.append_assoc, readNode,
    skipBlanks_of_not_blank (by decide)]
  simp only [List.singleton_append, readQuoted_quoteText]

end BlockStage.Json
