import AmdBundle.Text.Lossy
import Mathlib.Data.List.Basic

/-!
# AmdBundle.Proofs.Text.Lossy — what bytes show

* `lossy_utf8Bytes`: the bytes of a text show that text.
* `exists_of_mem_lossy`: a character of one byte is shown only where that byte is.
-/

namespace AmdBundle
namespace Text

/-! ### The bytes of a text -/

section OfText

variable {a : Nat} {begun : Begun} {rest : List UInt8}

theorem Begun.ofByte?_two (h : 2 ≤ a) (h' : a < 32) :
    Begun.ofByte? (a + 192) = some ⟨a, 0, 0x80, 0xBF⟩ := by
  rw [ofByte?, if_pos (by omega), Nat.add_sub_cancel]

theorem Begun.ofByte?_three (h : a < 16) :
    Begun.ofByte? (a + 224) =
      some ⟨a, 1, if a = 0 then 0xA0 else 0x80, if a = 13 then 0x9F else 0xBF⟩ := by
  rw [ofByte?, if_neg (by omega), if_pos (by omega), Nat.add_sub_cancel]
  simp

theorem Begun.ofByte?_four (h : a < 5) :
    Begun.ofByte? (a + 240) =
      some ⟨a, 2, if a = 0 then 0x90 else 0x80, if a = 4 then 0x8F else 0xBF⟩ := by
  rw [ofByte?, if_neg (by omega), if_neg (by omega), if_pos (by omega), Nat.add_sub_cancel]
  simp

theorem lossyFrom_one (h : a < 128) :
    lossyFrom none (UInt8.ofNat a :: rest) = Char.ofNat a :: lossyFrom none rest := by
  rw [lossyFrom, UInt8.toNat_ofNat_of_lt' (by simp only [UInt8.size]; omega), readFirst, if_pos h]
  rfl

theorem lossyFrom_begin (h : 128 ≤ a) (h' : a < 256) (hbegun : Begun.ofByte? a = some begun) :
    lossyFrom none (UInt8.ofNat a :: rest) = lossyFrom (some begun) rest := by
  rw [lossyFrom, UInt8.toNat_ofNat_of_lt' h', readFirst, if_neg (by omega), hbegun]
  rfl

theorem lossyFrom_more {bits more low high : Nat} (h : low ≤ a + 128) (h' : a + 128 ≤ high)
    (ha : a < 64) :
    lossyFrom (some ⟨bits, more + 1, low, high⟩) (UInt8.ofNat (a + 128) :: rest) =
      lossyFrom (some ⟨bits * 64 + a, more, 0x80, 0xBF⟩) rest := by
  rw [lossyFrom, UInt8.toNat_ofNat_of_lt' (by simp only [UInt8.size]; omega), Begun.read,
    if_pos ⟨h, h'⟩, Nat.add_sub_cancel]
  rfl

theorem lossyFrom_last {bits low high : Nat} (h : low ≤ a + 128) (h' : a + 128 ≤ high)
    (ha : a < 64) :
    lossyFrom (some ⟨bits, 0, low, high⟩) (UInt8.ofNat (a + 128) :: rest) =
      Char.ofNat (bits * 64 + a) :: lossyFrom none rest := by
  rw [lossyFrom, UInt8.toNat_ofNat_of_lt' (by simp only [UInt8.size]; omega), Begun.read,
    if_pos ⟨h, h'⟩, Nat.add_sub_cancel]
  rfl

theorem lossyFrom_utf8EncodeChar (c : Char) (rest : List UInt8) :
    lossyFrom none (String.utf8EncodeChar c ++ rest) = c :: lossyFrom none rest := by
  have hchar : Char.ofNat c.val.toNat = c := Char.ofNat_toNat c
  have hvalid : c.val.toNat < 0xD800 ∨ 0xDFFF < c.val.toNat ∧ c.val.toNat < 0x110000 := c.valid
  unfold String.utf8EncodeChar
  dsimp only
  generalize c.val.toNat = v at *
  rw [← hchar]
  -- the number of bytes; in each case the bits that they carry are put together again
  split
  · rw [List.singleton_append, lossyFrom_one (by omega)]
  · split
    · have hbegun := Begun.ofByte?_two (a := v / 64 % 32) (by omega) (by omega)
      rw [List.cons_append, lossyFrom_begin (by omega) (by omega) hbegun, List.singleton_append,
        lossyFrom_last (by omega) (by omega) (by omega)]
      congr 2
      omega
    · split
      · have hbegun := Begun.ofByte?_three (a := v / 4096 % 16) (by omega)
        rw [List.cons_append, lossyFrom_begin (by omega) (by omega) hbegun, List.cons_append,
          lossyFrom_more (by split <;> omega) (by split <;> omega) (by omega),
          List.singleton_append, lossyFrom_last (by omega) (by omega) (by omega)]
        congr 2
        omega
      · have hbegun := Begun.ofByte?_four (a := v / 262144 % 8) (by omega)
        rw [List.cons_append, lossyFrom_begin (by omega) (by omega) hbegun, List.cons_append,
          lossyFrom_more (by split <;> omega) (by split <;> omega) (by omega), List.cons_append,
          lossyFrom_more (by omega) (by omega) (by omega), List.singleton_append,
          lossyFrom_last (by omega) (by omega) (by omega)]
        congr 2
        omega

theorem utf8Bytes_eq_flatMap (text : String) :
    utf8Bytes text = text.toList.flatMap String.utf8EncodeChar := by
  have h := String.toByteArray_ofList (l := text.toList)
  rw [String.ofList_toList] at h
  rw [utf8Bytes, h, List.utf8Encode]
  simp

theorem lossyFrom_flatMap (cs : List Char) :
    lossyFrom none (cs.flatMap String.utf8EncodeChar) = cs := by
  induction cs with
  | nil => rfl
  | cons c rest ih => rw [List.flatMap_cons, lossyFrom_utf8EncodeChar, ih]

@[simp] theorem lossy_utf8Bytes (text : String) : lossy (utf8Bytes text) = text := by
  rw [lossy, utf8Bytes_eq_flatMap, lossyFrom_flatMap, String.ofList_toList]

end OfText

/-! ### Characters of one byte -/

section Plain

/-- What has begun is longer than a byte: with the next byte its number is 128 at least, or it is 2
at least and one more byte makes it so. -/
structure Begun.Long (begun : Begun) : Prop where
  low : 0x80 ≤ begun.low
  next : 2 ≤ begun.bits * 64 + (begun.low - 0x80)
  last : begun.more = 0 → 128 ≤ begun.bits * 64 + (begun.low - 0x80)

theorem Begun.long_of_ofByte? {b : Nat} {begun : Begun} (h : ofByte? b = some begun) :
    begun.Long := by
  unfold ofByte? at h
  split at h
  · obtain rfl := Option.some.inj h
    constructor <;> dsimp only <;> omega
  · split at h
    · obtain rfl := Option.some.inj h
      by_cases hb : b = 0xE0
      · constructor <;> simp [hb]
      · constructor <;> simp only [if_neg hb] <;> omega
    · split at h
      · obtain rfl := Option.some.inj h
        by_cases hb : b = 0xF0
        · constructor <;> simp [hb]
        · constructor <;> simp only [if_neg hb] <;> omega
      · simp at h

/-- A character of one byte; the one with the number 0 is left out, as it also stands for numbers
that no character has. -/
def IsPlain (c : Char) : Prop := 0 < c.toNat ∧ c.toNat < 128

instance (c : Char) : Decidable (IsPlain c) := inferInstanceAs (Decidable (_ ∧ _))

theorem not_isPlain_replacement : ¬ IsPlain replacement := by
  rintro ⟨-, h⟩
  simp [replacement] at h

theorem not_isPlain_ofNat {n : Nat} (h : 128 ≤ n) : ¬ IsPlain (Char.ofNat n) := by
  rintro ⟨hpos, hlt⟩
  by_cases hvalid : n.isValidChar
  · rw [Char.ofNat, dif_pos hvalid] at hlt
    exact absurd hlt (Nat.not_lt.mpr h)
  · rw [Char.ofNat, dif_neg hvalid] at hpos
    exact absurd hpos (Nat.lt_irrefl 0)

theorem toNat_ofNat {n : Nat} (h : n < 128) : (Char.ofNat n).toNat = n := by
  have hvalid : n.isValidChar := .inl (Nat.lt_trans h (by decide))
  rw [Char.ofNat, dif_pos hvalid]
  rfl

theorem readFirst_cases (b : Nat) :
    (b < 128 ∧ readFirst b = ([Char.ofNat b], none)) ∨
      (∃ next : Begun, next.Long ∧ readFirst b = ([], some next)) ∨
      readFirst b = ([replacement], none) := by
  unfold readFirst
  split
  · rename_i hb
    exact .inl ⟨hb, rfl⟩
  · cases hbegun : Begun.ofByte? b with
    | none => exact .inr (.inr rfl)
    | some begun => exact .inr (.inl ⟨begun, Begun.long_of_ofByte? hbegun, rfl⟩)

/-- What a byte gives where a character has begun: it ends it, goes on with it, or breaks it off. -/
theorem Begun.Long.read_cases {begun : Begun} (h : begun.Long) (b : Nat) :
    (∃ n, 128 ≤ n ∧ begun.read b = ([Char.ofNat n], none)) ∨
      (∃ next : Begun, next.Long ∧ begun.read b = ([], some next)) ∨
      begun.read b = (replacement :: (readFirst b).1, (readFirst b).2) := by
  obtain ⟨bits, more, low, high⟩ := begun
  obtain ⟨hlow, hnext, hlast⟩ := h
  dsimp only at hlow hnext hlast
  unfold Begun.read
  split
  · rename_i hb
    dsimp only at hb ⊢
    cases more with
    | zero =>
      exact .inl ⟨bits * 64 + (b - 0x80), by omega, rfl⟩
    | succ more =>
      refine .inr (.inl ⟨_, ?_, rfl⟩)
      constructor <;> dsimp only <;> omega
  · exact .inr (.inr rfl)

/-- What one byte gives: a plain character shown is that byte, and what it leaves begun is longer.
-/
structure ReadsByte (b : Nat) (read : List Char × Option Begun) : Prop where
  shown : ∀ c ∈ read.1, IsPlain c → c.toNat = b
  long : ∀ begun ∈ read.2, begun.Long

theorem readsByte_readFirst (b : Nat) : ReadsByte b (readFirst b) := by
  obtain ⟨hb, hread⟩ | ⟨next, hnext, hread⟩ | hread := readFirst_cases b
  · exact ⟨by simp [hread, toNat_ofNat hb], by simp [hread]⟩
  · exact ⟨by simp [hread], by simpa [hread] using hnext⟩
  · exact ⟨by simp [hread, not_isPlain_replacement], by simp [hread]⟩

theorem Begun.Long.readsByte {begun : Begun} (h : begun.Long) (b : Nat) :
    ReadsByte b (begun.read b) := by
  obtain ⟨n, hn, hread⟩ | ⟨next, hnext, hread⟩ | hread := h.read_cases b
  · exact ⟨by simp [hread, not_isPlain_ofNat hn], by simp [hread]⟩
  · exact ⟨by simp [hread], by simpa [hread] using hnext⟩
  · obtain ⟨hshown, hlong⟩ := readsByte_readFirst b
    rw [hread]
    refine ⟨?_, hlong⟩
    intro c hc hplain
    rcases List.mem_cons.mp hc with rfl | hc
    · exact absurd hplain not_isPlain_replacement
    · exact hshown c hc hplain

variable {bytes rest : List UInt8} {b : UInt8} {c : Char} {begun : Option Begun}

theorem exists_readsByte (h : ∀ x ∈ begun, x.Long) (b : UInt8) :
    ∃ read, ReadsByte b.toNat read ∧
      ∀ rest, lossyFrom begun (b :: rest) = read.1 ++ lossyFrom read.2 rest := by
  cases begun with
  | none => exact ⟨_, readsByte_readFirst b.toNat, fun _ => rfl⟩
  | some begun => exact ⟨_, (h begun rfl).readsByte b.toNat, fun _ => rfl⟩

theorem exists_of_mem_lossyFrom (h : ∀ x ∈ begun, x.Long) (hc : c ∈ lossyFrom begun bytes)
    (hplain : IsPlain c) : ∃ b ∈ bytes, b.toNat = c.toNat := by
  induction bytes generalizing begun with
  | nil =>
    cases begun with
    | none => simp [lossyFrom] at hc
    | some begun =>
      obtain rfl := List.mem_singleton.mp hc
      exact absurd hplain not_isPlain_replacement
  | cons b rest ih =>
    obtain ⟨read, hread, hfrom⟩ := exists_readsByte h b
    rw [hfrom, List.mem_append] at hc
    rcases hc with hc | hc
    · exact ⟨b, List.mem_cons_self, (hread.shown c hc hplain).symm⟩
    · obtain ⟨other, hother, hnumber⟩ := ih hread.long hc
      exact ⟨other, List.mem_cons_of_mem _ hother, hnumber⟩

theorem lossyFrom_cons_of_lt (h : ∀ x ∈ begun, x.Long) (hb : b.toNat < 128) :
    lossyFrom begun (b :: rest) =
      lossyFrom begun [] ++ Char.ofNat b.toNat :: lossyFrom none rest := by
  have hfirst : readFirst b.toNat = ([Char.ofNat b.toNat], none) := by rw [readFirst, if_pos hb]
  cases begun with
  | none =>
    show (readFirst b.toNat).1 ++ lossyFrom (readFirst b.toNat).2 rest = _
    rw [hfirst]
    rfl
  | some begun =>
    have hlow := (h begun rfl).low
    show (begun.read b.toNat).1 ++ lossyFrom (begun.read b.toNat).2 rest = _
    rw [Begun.read, if_neg (by omega), hfirst]
    rfl

theorem lossyFrom_append_of_lt (h : ∀ x ∈ begun, x.Long) (hb : b.toNat < 128) :
    lossyFrom begun (bytes ++ b :: rest) =
      lossyFrom begun bytes ++ Char.ofNat b.toNat :: lossyFrom none rest := by
  induction bytes generalizing begun with
  | nil => exact lossyFrom_cons_of_lt h hb
  | cons first bytes ih =>
    obtain ⟨read, hread, hfrom⟩ := exists_readsByte h first
    rw [List.cons_append, hfrom, hfrom, ih hread.long, List.append_assoc]

/-- Whatever follows, a character that has begun shows something that is not plain. -/
theorem exists_not_isPlain {begun : Begun} (h : begun.Long) (bytes : List UInt8) :
    ∃ c ∈ lossyFrom (some begun) bytes, ¬ IsPlain c := by
  induction bytes generalizing begun with
  | nil => exact ⟨replacement, by simp [lossyFrom], not_isPlain_replacement⟩
  | cons b rest ih =>
    rw [lossyFrom]
    obtain ⟨n, hn, hread⟩ | ⟨next, hnext, hread⟩ | hread := h.read_cases b.toNat
    · exact ⟨Char.ofNat n, by simp [hread], not_isPlain_ofNat hn⟩
    · rw [hread, List.nil_append]
      exact ih hnext
    · exact ⟨replacement, by simp [hread], not_isPlain_replacement⟩

/-- Where everything shown is plain, it is the bytes. -/
theorem lossyFrom_eq_map (h : ∀ c ∈ lossyFrom none bytes, IsPlain c) :
    lossyFrom none bytes = bytes.map Char.ofUInt8 := by
  induction bytes with
  | nil => rfl
  | cons b rest ih =>
    rw [lossyFrom] at h ⊢
    obtain ⟨-, hread⟩ | ⟨next, hnext, hread⟩ | hread := readFirst_cases b.toNat
    · have hchar : Char.ofNat b.toNat = Char.ofUInt8 b := Char.ofNat_toNat (Char.ofUInt8 b)
      rw [hread] at h ⊢
      rw [ih fun c hc => h c (List.mem_append_right _ hc), hchar]
      rfl
    · obtain ⟨c, hc, hplain⟩ := exists_not_isPlain hnext rest
      exact absurd (h c (by simpa [hread] using hc)) hplain
    · exact absurd (h replacement (by simp [hread])) not_isPlain_replacement

end Plain

end Text
end AmdBundle
