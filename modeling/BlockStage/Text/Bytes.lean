/-!
The bytes of a text, in UTF-8. Of two characters the greater one has the greater bytes, so the order
of the code points, in which texts are compared here, is the order of the bytes.
-/

namespace BlockStage.Text

def bytes (s : String) : List UInt8 := s.toByteArray.data.toList

theorem bytes_eq_flatMap (s : String) : bytes s = s.toList.flatMap String.utf8EncodeChar := by
  rw [bytes, ← String.utf8Encode_toList, List.utf8Encode, List.data_toByteArray]

/-- The first of the groups of six bits in which two numbers differ decides their order. -/
private theorem groups_lt {v w : Nat} (h : v < w) (hw : w < 8 * 262144) :
    v / 262144 % 8 < w / 262144 % 8 ∨ v / 262144 % 8 = w / 262144 % 8 ∧
      (v / 4096 % 64 < w / 4096 % 64 ∨ v / 4096 % 64 = w / 4096 % 64 ∧
        (v / 64 % 64 < w / 64 % 64 ∨ v / 64 % 64 = w / 64 % 64 ∧ v % 64 < w % 64)) := by
  have hv : v / 262144 = v / 4096 / 64 ∧ v / 4096 = v / 64 / 64 := by omega
  have hw' : w / 262144 = w / 4096 / 64 ∧ w / 4096 = w / 64 / 64 := by omega
  rw [Nat.mod_eq_of_lt (show v / 262144 < 8 by omega),
    Nat.mod_eq_of_lt (show w / 262144 < 8 by omega)]
  omega

/-- The bytes of two different characters differ before either of them ends, and where they first
differ the greater character has the greater byte. -/
theorem encodeChar_append_lt {c d : Char} (h : c < d) (as bs : List UInt8) :
    String.utf8EncodeChar c ++ as < String.utf8EncodeChar d ++ bs := by
  have hval : c.val.toNat < d.val.toNat := h
  have hmax : d.val.toNat < 0x110000 := by
    have hvalid := d.valid
    simp only [UInt32.isValidChar, Nat.isValidChar] at hvalid
    omega
  have hgroups := groups_lt hval (by omega)
  have lead2 (n : Nat) : (n % 32 + 192) % 256 = n % 32 + 192 := by omega
  have lead3 (n : Nat) : (n % 16 + 224) % 256 = n % 16 + 224 := by omega
  have lead4 (n : Nat) : (n % 8 + 240) % 256 = n % 8 + 240 := by omega
  have tail (n : Nat) : (n % 64 + 128) % 256 = n % 64 + 128 := by omega
  -- one case for each pair of lengths, those where the lesser character is the longer one included
  simp only [String.utf8EncodeChar]
  split <;> split <;> (try split) <;> (try split) <;> (try split) <;> (try split) <;>
    simp only [List.cons_append, List.nil_append, List.cons_lt_cons_iff, UInt8.lt_iff_toNat_lt,
      ← UInt8.toNat_inj, UInt8.toNat_ofNat', Nat.reducePow, lead2, lead3, lead4, tail] <;>
    omega

theorem encodeChar_ne_nil (c : Char) : String.utf8EncodeChar c ≠ [] := by
  simp only [String.utf8EncodeChar]
  split <;> (try split) <;> (try split) <;> simp

theorem flatMap_encodeChar_lt {cs ds : List Char} (h : cs < ds) :
    cs.flatMap String.utf8EncodeChar < ds.flatMap String.utf8EncodeChar := by
  induction cs generalizing ds with
  | nil =>
    cases ds with
    | nil => exact absurd h (List.lt_irrefl _)
    | cons d ds =>
      obtain ⟨b, bs, hd⟩ := List.exists_cons_of_ne_nil (encodeChar_ne_nil d)
      simp [hd]
  | cons c cs ih =>
    cases ds with
    | nil => exact absurd h (List.not_lt_nil _)
    | cons d ds =>
      rw [List.flatMap_cons, List.flatMap_cons]
      rcases List.cons_lt_cons_iff.mp h with hlt | ⟨rfl, hlt⟩
      · exact encodeChar_append_lt hlt _ _
      · exact List.append_left_lt (ih hlt)

/-- **The order of texts** is the order of their bytes. -/
theorem bytes_lt_bytes_iff (s t : String) : bytes s < bytes t ↔ s < t := by
  have mono {s t : String} (h : s < t) : bytes s < bytes t := by
    rw [bytes_eq_flatMap, bytes_eq_flatMap]
    exact flatMap_encodeChar_lt (String.lt_iff.mp h)
  constructor
  · intro hlt
    refine Decidable.byContradiction fun hnot => ?_
    by_cases h : t < s
    · exact List.lt_irrefl _ (List.lt_trans hlt (mono h))
    · obtain rfl := String.le_antisymm (String.not_lt.mp h) (String.not_lt.mp hnot)
      exact List.lt_irrefl _ hlt
  · exact mono

theorem bytes_le_bytes_iff (s t : String) : bytes s ≤ bytes t ↔ s ≤ t := by
  rw [← List.not_lt, bytes_lt_bytes_iff, String.not_lt]

end BlockStage.Text
