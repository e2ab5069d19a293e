import BlockStage.Proofs.JsonScalars
import BlockStage.Signature

/-!
What the text of a mutation fault tells: the check that failed and what was found there. Faults of
different checks never read the same.
-/

namespace BlockStage

/-! ## Numbers in front of words -/

theorem toDigits_append_ne {n : Nat} {c : Char} (hc : c.isDigit = false) (cs rest : List Char) :
    Nat.toDigits 10 n ++ cs ≠ c :: rest := by
  obtain ⟨d, ds, hds, hd⟩ := Json.exists_digit_cons n
  intro h
  rw [hds, List.cons_append, List.cons.injEq] at h
  exact Json.ne_of_isDigit hd hc h.1

theorem toDigits_append_inj {m n : Nat} {cs ds : List Char} (hcs : Json.EndsNumber cs)
    (hds : Json.EndsNumber ds) (h : Nat.toDigits 10 m ++ cs = Nat.toDigits 10 n ++ ds) :
    m = n ∧ cs = ds := by
  have hdigits (k : Nat) : ∀ c ∈ Nat.toDigits 10 k, c.isDigit = true :=
    fun c hc => Nat.isDigit_of_mem_toDigits (by decide) (by decide) hc
  have hspan := congrArg (List.span Char.isDigit) h
  rw [Json.span_digits (hdigits m) hcs, Json.span_digits (hdigits n) hds, Prod.mk.injEq] at hspan
  have hvalue := congrArg Decimal.ofDigits hspan.1
  rw [Json.ofDigits_toDigits, Json.ofDigits_toDigits] at hvalue
  exact ⟨hvalue, hspan.2⟩

theorem endsNumber_space (cs : List Char) : Json.EndsNumber (' ' :: cs) := by
  intro c hc
  cases hc
  decide

/-- Two numbers in a text are read off it if the words are known. -/
theorem eq_of_counts {m n k l : Nat} {words rest : List Char}
    (h : Nat.toDigits 10 m ++ ' ' :: (words ++ (Nat.toDigits 10 k ++ ' ' :: rest)) =
      Nat.toDigits 10 n ++ ' ' :: (words ++ (Nat.toDigits 10 l ++ ' ' :: rest))) :
    m = n ∧ k = l := by
  obtain ⟨hfirst, hwords⟩ := toDigits_append_inj (endsNumber_space _) (endsNumber_space _) h
  have hsecond := List.append_cancel_left (List.cons.inj hwords).2
  exact ⟨hfirst, (toDigits_append_inj (endsNumber_space _) (endsNumber_space _) hsecond).1⟩

/-! ## Reasons -/

namespace MutationFault

/-- Faults of one check that found the same; errors in one list, if their messages are the same. -/
def SameCheck : MutationFault → MutationFault → Prop
  | undecodable list error, undecodable list' error' =>
    list = list' ∧ error.message = error'.message
  | nameCount names ids, nameCount names' ids' => names = names' ∧ ids = ids'
  | defaultCount defaults ids, defaultCount defaults' ids' => defaults = defaults' ∧ ids = ids'
  | _, _ => False

theorem toList_nameCount (names ids : Nat) : (nameCount names ids).reason.toList =
    Nat.toDigits 10 names ++ ' ' :: ("argument names for ".toList ++
      (Nat.toDigits 10 ids ++ ' ' :: "argument ids".toList)) := by
  simp [reason]

theorem toList_defaultCount (defaults ids : Nat) : (defaultCount defaults ids).reason.toList =
    Nat.toDigits 10 defaults ++ ' ' :: ("defaults for ".toList ++
      (Nat.toDigits 10 ids ++ ' ' :: "arguments".toList)) := by
  simp [reason]

theorem exists_cons_undecodable (list : ArgumentList) (error : Json.Error) :
    ∃ rest, (undecodable list error).reason.toList = 'a' :: rest := by
  cases list <;> exact ⟨_, by simp [reason, ArgumentList.field]; rfl⟩

theorem toList_undecodable_ne (list : ArgumentList) (error : Json.Error) (n : Nat)
    (cs : List Char) : (undecodable list error).reason.toList ≠ Nat.toDigits 10 n ++ cs := by
  obtain ⟨rest, hrest⟩ := exists_cons_undecodable list error
  rw [hrest]
  exact (toDigits_append_ne (by decide) cs rest).symm

theorem reason_nameCount_ne_defaultCount (names ids defaults ids' : Nat) :
    (nameCount names ids).reason ≠ (defaultCount defaults ids').reason := by
  intro h
  rw [← String.toList_inj, toList_nameCount, toList_defaultCount] at h
  obtain ⟨-, hwords⟩ := toDigits_append_inj (endsNumber_space _) (endsNumber_space _) h
  simp at hwords

/-- **A reason tells the check that failed.** -/
theorem sameCheck_of_reason_eq {fault other : MutationFault} (h : fault.reason = other.reason) :
    fault.SameCheck other := by
  have hchars := String.toList_inj.mpr h
  cases fault with
  | undecodable list error =>
    cases other with
    | undecodable list' error' =>
      cases list <;> cases list' <;> simp [reason, ArgumentList.field] at hchars
      all_goals exact ⟨rfl, String.toList_inj.mp hchars⟩
    | nameCount names ids =>
      rw [toList_nameCount] at hchars
      exact absurd hchars (toList_undecodable_ne list error _ _)
    | defaultCount defaults ids =>
      rw [toList_defaultCount] at hchars
      exact absurd hchars (toList_undecodable_ne list error _ _)
  | nameCount names ids =>
    rw [toList_nameCount] at hchars
    cases other with
    | undecodable list error => exact absurd hchars.symm (toList_undecodable_ne list error _ _)
    | nameCount names' ids' =>
      rw [toList_nameCount] at hchars
      exact eq_of_counts hchars
    | defaultCount defaults ids' =>
      exact absurd h (reason_nameCount_ne_defaultCount names ids defaults ids')
  | defaultCount defaults ids =>
    rw [toList_defaultCount] at hchars
    cases other with
    | undecodable list error => exact absurd hchars.symm (toList_undecodable_ne list error _ _)
    | nameCount names ids' =>
      exact absurd h.symm (reason_nameCount_ne_defaultCount names ids' defaults ids)
    | defaultCount defaults' ids' =>
      rw [toList_defaultCount] at hchars
      exact eq_of_counts hchars

end MutationFault

theorem MutationError.sameCheck_of_message_eq {e other : MutationError}
    (hblock : e.block = other.block) (h : e.message = other.message) :
    e.fault.SameCheck other.fault := by
  unfold message at h
  rw [hblock] at h
  exact MutationFault.sameCheck_of_reason_eq ((String.append_right_inj _).mp h)

end BlockStage
