import AmdBundle.Text.Percent

/-!
# AmdBundle.Proofs.Text.Percent — percent coding is read back

The written form of a text stands for its bytes (`decode?_encode`), and what ends a coded value in a
longer text cannot be part of the value (`of_mem_encode`).
-/

namespace AmdBundle
namespace Text
namespace Percent

theorem toNat_lt_of_isVerbatim {c : Char} (h : isVerbatim c = true) : c.toNat < 128 := by
  rw [isVerbatim, Bool.or_eq_true] at h
  rcases h with h | h
  · change (decide (65 ≤ c.val ∧ c.val ≤ 90) || (decide (97 ≤ c.val) && decide (c.val ≤ 122)) ||
      (decide (48 ≤ c.val) && decide (c.val ≤ 57))) = true at h
    simp only [Bool.or_eq_true, Bool.and_eq_true, decide_eq_true_eq, UInt32.le_iff_toNat_le] at h
    change ((65 ≤ c.toNat ∧ c.toNat ≤ 90) ∨ (97 ≤ c.toNat ∧ c.toNat ≤ 122)) ∨
      (48 ≤ c.toNat ∧ c.toNat ≤ 57) at h
    omega
  · have hall : marks.all (fun mark => mark.toNat < 128) = true := by decide
    exact of_decide_eq_true (List.all_eq_true.mp hall c (List.contains_iff_mem.mp h))

theorem not_isVerbatim_percent : isVerbatim '%' = false := by decide

theorem isVerbatim_hexDigit {n : Nat} (h : n < 16) : isVerbatim (hexDigit n) = true := by
  have hall : ∀ k : Fin 16, isVerbatim (hexDigit k) = true := by decide
  exact hall ⟨n, h⟩

theorem utf8EncodeChar_ofUInt8 {b : UInt8} (h : (Char.ofUInt8 b).toNat < 128) :
    String.utf8EncodeChar (Char.ofUInt8 b) = [b] := by
  have hb : (Char.ofUInt8 b).val.toNat = b.toNat := UInt8.toNat_toUInt32 b
  have hle : (Char.ofUInt8 b).val.toNat ≤ 127 := Nat.le_of_lt_succ h
  simp only [String.utf8EncodeChar]
  rw [if_pos hle, hb, UInt8.ofNat_toNat]

theorem decode?_cons_of_ne {c : Char} (h : c ≠ '%') (cs : List Char) :
    decode? (c :: cs) = (decode? cs).map (String.utf8EncodeChar c ++ ·) := by
  rw [decode?.eq_def]
  exact if_neg h

theorem decode?_escape {hi lo : Char} {h l : Nat} (hhi : hexValue? hi = some h)
    (hlo : hexValue? lo = some l) (cs : List Char) :
    decode? ('%' :: hi :: lo :: cs) = (decode? cs).map (UInt8.ofNat (16 * h + l) :: ·) := by
  rw [decode?, if_pos rfl]
  simp only [hhi, hlo]
  cases decode? cs <;> rfl

theorem decode?_encodeByte_append (b : UInt8) (cs : List Char) :
    decode? (encodeByte b ++ cs) = (decode? cs).map (b :: ·) := by
  rw [encodeByte]
  split
  · rename_i hverbatim
    have hne : Char.ofUInt8 b ≠ '%' := by
      intro heq
      rw [heq, not_isVerbatim_percent] at hverbatim
      exact Bool.false_ne_true hverbatim
    rw [List.singleton_append, decode?_cons_of_ne hne,
      utf8EncodeChar_ofUInt8 (toNat_lt_of_isVerbatim hverbatim)]
    rfl
  · have hb : b.toNat < 256 := b.toNat_lt
    have hvalue : 16 * (b.toNat / 16) + b.toNat % 16 = b.toNat := by omega
    show decode? ('%' :: hexDigit (b.toNat / 16) :: hexDigit (b.toNat % 16) :: cs) = _
    rw [decode?_escape (hexValue?_hexDigit (by omega)) (hexValue?_hexDigit (by omega)), hvalue,
      UInt8.ofNat_toNat]

theorem decode?_flatMap_encodeByte (bytes : List UInt8) :
    decode? (bytes.flatMap encodeByte) = some bytes := by
  induction bytes with
  | nil => rfl
  | cons b bytes ih => rw [List.flatMap_cons, decode?_encodeByte_append, ih, Option.map_some]

theorem decode?_encode (text : String) : decode? (encode text).toList = some (utf8Bytes text) := by
  rw [encode, String.toList_ofList, decode?_flatMap_encodeByte]

/-- A written form is made of characters that stand for themselves, and percent signs. -/
theorem of_mem_encode {text : String} {c : Char} (h : c ∈ (encode text).toList) :
    isVerbatim c = true ∨ c = '%' := by
  rw [encode, String.toList_ofList, List.mem_flatMap] at h
  obtain ⟨b, -, hmem⟩ := h
  have hb : b.toNat < 256 := b.toNat_lt
  rw [encodeByte] at hmem
  split at hmem
  · rename_i hverbatim
    rw [List.mem_singleton.mp hmem]
    exact .inl hverbatim
  · simp only [List.mem_cons, List.not_mem_nil, or_false] at hmem
    rcases hmem with rfl | rfl | rfl
    · exact .inr rfl
    · exact .inl (isVerbatim_hexDigit (by omega))
    · exact .inl (isVerbatim_hexDigit (by omega))

end Percent
end Text
end AmdBundle
