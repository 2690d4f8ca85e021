import AmdBundle.Proofs.Text.Percent

/-!
# AmdBundle.Proofs.Text.Unescape — percent coding read byte by byte

What a percent coded text stands for can be said of its bytes alone: each escape gives one byte and
every other byte stands for itself (`unescape`).  The reader goes by characters, and refuses a
percent sign that is not followed by two digits (`HasBareSign`).  Where it does not refuse the two
agree: an escape is three bytes of one character each, and no other character has the byte of a
percent sign in it (`decode?_eq_some_iff`).
-/

namespace AmdBundle
namespace Text

theorem ofUtf8?_eq_some_iff {bytes : List UInt8} {text : String} :
    ofUtf8? bytes = some text ↔ utf8Bytes text = bytes := by
  constructor
  · intro h
    rw [ofUtf8?, String.fromUTF8?] at h
    split at h
    · rw [← Option.some.inj h]
      rfl
    · simp at h
  · rintro rfl
    exact ofUtf8?_utf8Bytes text

theorem utf8Bytes_inj {a b : String} : utf8Bytes a = utf8Bytes b ↔ a = b := by
  rw [← ofUtf8?_eq_some_iff, ofUtf8?_utf8Bytes, Option.some.injEq, eq_comm]

theorem utf8Bytes_eq (text : String) :
    utf8Bytes text = text.toList.flatMap String.utf8EncodeChar := by
  obtain ⟨cs, rfl⟩ : ∃ cs, text = String.ofList cs := ⟨text.toList, String.ofList_toList.symm⟩
  rw [utf8Bytes, String.toByteArray_ofList, List.utf8Encode, List.data_toByteArray,
    String.toList_ofList]

namespace Percent

variable {b : UInt8} {c hi lo : Char} {cs : List Char} {bytes front rest : List UInt8}

/-! ### Escapes among bytes -/

def signByte : UInt8 := 37

/-- The byte that an escape stands for; `none` if the three bytes are not a percent sign and two
hexadecimal digits. -/
def escaped? (sign hi lo : UInt8) : Option UInt8 :=
  if sign = signByte then
    match hexValue? (Char.ofUInt8 hi), hexValue? (Char.ofUInt8 lo) with
    | some h, some l => some (UInt8.ofNat (16 * h + l))
    | _, _ => none
  else none

/-- The bytes with every escape in them replaced by the byte that it stands for. -/
def unescape : List UInt8 → List UInt8
  | sign :: hi :: lo :: rest =>
    match escaped? sign hi lo with
    | some b => b :: unescape rest
    | none => sign :: unescape (hi :: lo :: rest)
  | bytes => bytes

theorem unescape_cons_of_ne (h : b ≠ signByte) (rest : List UInt8) :
    unescape (b :: rest) = b :: unescape rest := by
  match rest with
  | [] => rfl
  | [_] => rfl
  | hi :: lo :: rest =>
    have hnone : escaped? b hi lo = none := if_neg h
    rw [unescape, hnone]

theorem unescape_append (h : signByte ∉ front) (rest : List UInt8) :
    unescape (front ++ rest) = front ++ unescape rest := by
  induction front with
  | nil => rfl
  | cons b front ih =>
    rw [List.mem_cons, not_or] at h
    rw [List.cons_append, unescape_cons_of_ne (Ne.symm h.1), ih h.2, List.cons_append]

theorem unescape_escape {hiByte loByte : UInt8} {h l : Nat}
    (hhi : hexValue? (Char.ofUInt8 hiByte) = some h)
    (hlo : hexValue? (Char.ofUInt8 loByte) = some l) (rest : List UInt8) :
    unescape (signByte :: hiByte :: loByte :: rest) =
      UInt8.ofNat (16 * h + l) :: unescape rest := by
  have hsome : escaped? signByte hiByte loByte = some (UInt8.ofNat (16 * h + l)) := by
    rw [escaped?, if_pos rfl, hhi, hlo]
  rw [unescape, hsome]

/-! ### Characters as bytes -/

theorem utf8EncodeChar_percent : String.utf8EncodeChar '%' = [signByte] := by decide

theorem exists_utf8EncodeChar (h : c.toNat < 128) :
    ∃ b, String.utf8EncodeChar c = [b] ∧ Char.ofUInt8 b = c := by
  have hle : c.val.toNat ≤ 127 := Nat.le_of_lt_succ h
  refine ⟨UInt8.ofNat c.val.toNat, ?_, Char.ext (UInt32.toNat_inj.mp ?_)⟩
  · simp only [String.utf8EncodeChar]
    rw [if_pos hle]
  · show (UInt8.ofNat c.val.toNat).toUInt32.toNat = c.val.toNat
    rw [UInt8.toNat_toUInt32, UInt8.toNat_ofNat']
    omega

theorem signByte_ne_ofNat {n : Nat} (h : n % 256 ≠ 37) : signByte ≠ UInt8.ofNat n := by
  intro heq
  have hnat := congrArg UInt8.toNat heq
  rw [UInt8.toNat_ofNat'] at hnat
  exact h hnat.symm

/-- No character but the percent sign has its byte in it. -/
theorem signByte_not_mem_utf8EncodeChar (h : c ≠ '%') : signByte ∉ String.utf8EncodeChar c := by
  have hval : c.val.toNat ≠ 37 := fun hval => h (Char.ext (UInt32.toNat_inj.mp hval))
  simp only [String.utf8EncodeChar]
  split
  · rw [List.mem_singleton]
    exact signByte_ne_ofNat (by omega)
  · -- every byte of a longer character is at least 128
    split
    · simp only [List.mem_cons, List.not_mem_nil, or_false, not_or]
      exact ⟨signByte_ne_ofNat (by omega), signByte_ne_ofNat (by omega)⟩
    · split
      · simp only [List.mem_cons, List.not_mem_nil, or_false, not_or]
        exact ⟨signByte_ne_ofNat (by omega), signByte_ne_ofNat (by omega),
          signByte_ne_ofNat (by omega)⟩
      · simp only [List.mem_cons, List.not_mem_nil, or_false, not_or]
        exact ⟨signByte_ne_ofNat (by omega), signByte_ne_ofNat (by omega),
          signByte_ne_ofNat (by omega), signByte_ne_ofNat (by omega)⟩

theorem toNat_lt_of_hexValue? {n : Nat} (h : hexValue? c = some n) : c.toNat < 128 := by
  have hbound : ∀ d : Char, d.toNat < 128 → c ≤ d → c.toNat < 128 := fun d hd hle =>
    Nat.lt_of_le_of_lt (UInt32.le_iff_toNat_le.mp (Char.le_def.mp hle)) hd
  unfold hexValue? at h
  split at h
  · rename_i hdigit
    exact hbound '9' (by decide) hdigit.2
  · split at h
    · rename_i hsmall
      exact hbound 'f' (by decide) hsmall.2
    · split at h
      · rename_i hcapital
        exact hbound 'F' (by decide) hcapital.2
      · simp at h

/-! ### Escapes among characters -/

/-- Whether a text begins with two hexadecimal digits. -/
def StartsWithDigits (cs : List Char) : Prop :=
  ∃ hi lo rest, cs = hi :: lo :: rest ∧ (hexValue? hi).isSome ∧ (hexValue? lo).isSome

/-- Whether some percent sign of a text is not followed by two hexadecimal digits. -/
def HasBareSign (cs : List Char) : Prop :=
  ∃ front behind, cs = front ++ '%' :: behind ∧ ¬ StartsWithDigits behind

theorem not_hasBareSign_nil : ¬ HasBareSign [] := by
  rintro ⟨front, behind, h, -⟩
  simp at h

theorem hasBareSign_cons_iff :
    HasBareSign (c :: cs) ↔ c = '%' ∧ ¬ StartsWithDigits cs ∨ HasBareSign cs := by
  constructor
  · rintro ⟨front, behind, h, hdigits⟩
    cases front with
    | nil =>
      obtain ⟨rfl, rfl⟩ := List.cons.inj h
      exact .inl ⟨rfl, hdigits⟩
    | cons d front => exact .inr ⟨front, behind, (List.cons.inj h).2, hdigits⟩
  · rintro (⟨rfl, hdigits⟩ | ⟨front, behind, rfl, hdigits⟩)
    · exact ⟨[], cs, rfl, hdigits⟩
    · exact ⟨c :: front, behind, rfl, hdigits⟩

theorem hasBareSign_cons_of_ne (h : c ≠ '%') : HasBareSign (c :: cs) ↔ HasBareSign cs := by
  simp [hasBareSign_cons_iff, h]

theorem ne_percent_of_isSome (h : (hexValue? c).isSome) : c ≠ '%' := by
  rintro rfl
  exact absurd h (by decide)

theorem hasBareSign_escape (hhi : (hexValue? hi).isSome) (hlo : (hexValue? lo).isSome) :
    HasBareSign ('%' :: hi :: lo :: cs) ↔ HasBareSign cs := by
  have hdigits : StartsWithDigits (hi :: lo :: cs) := ⟨hi, lo, cs, rfl, hhi, hlo⟩
  rw [hasBareSign_cons_iff, hasBareSign_cons_of_ne (ne_percent_of_isSome hhi),
    hasBareSign_cons_of_ne (ne_percent_of_isSome hlo)]
  simp [hdigits]

/-! ### Reading -/

theorem decode?_of_not_startsWithDigits (h : ¬ StartsWithDigits cs) :
    decode? ('%' :: cs) = none := by
  match cs with
  | [] => rfl
  | [_] => rfl
  | hi :: lo :: rest =>
    rw [decode?, if_pos rfl]
    cases hhi : hexValue? hi with
    | none => rfl
    | some value =>
      cases hlo : hexValue? lo with
      | none => rfl
      | some value' =>
        exact absurd ⟨hi, lo, rest, rfl, Option.isSome_of_eq_some hhi,
          Option.isSome_of_eq_some hlo⟩ h

/-- A text is refused if it has a percent sign that two digits do not follow, and else read as what
its bytes stand for. -/
theorem decode?_cases : ∀ cs : List Char,
    HasBareSign cs ∧ decode? cs = none ∨
      ¬ HasBareSign cs ∧ decode? cs = some (unescape (cs.flatMap String.utf8EncodeChar))
  | [] => .inr ⟨not_hasBareSign_nil, rfl⟩
  | c :: cs => by
    by_cases hc : c = '%'
    · subst hc
      by_cases hdigits : StartsWithDigits cs
      · obtain ⟨hi, lo, rest, rfl, hhi, hlo⟩ := hdigits
        obtain ⟨h, hh⟩ := Option.isSome_iff_exists.mp hhi
        obtain ⟨l, hl⟩ := Option.isSome_iff_exists.mp hlo
        -- the escape is three bytes, and the two digits can be told from theirs
        obtain ⟨hiByte, hhiBytes, hhiByte⟩ := exists_utf8EncodeChar (toNat_lt_of_hexValue? hh)
        obtain ⟨loByte, hloBytes, hloByte⟩ := exists_utf8EncodeChar (toNat_lt_of_hexValue? hl)
        have hbytes : unescape (('%' :: hi :: lo :: rest).flatMap String.utf8EncodeChar) =
            UInt8.ofNat (16 * h + l) :: unescape (rest.flatMap String.utf8EncodeChar) := by
          rw [List.flatMap_cons, List.flatMap_cons, List.flatMap_cons, utf8EncodeChar_percent,
            hhiBytes, hloBytes]
          exact unescape_escape (hhiByte ▸ hh) (hloByte ▸ hl) _
        rw [hasBareSign_escape hhi hlo, decode?_escape hh hl, hbytes]
        rcases decode?_cases rest with ⟨hbare, hnone⟩ | ⟨hbare, hsome⟩
        · exact .inl ⟨hbare, by rw [hnone, Option.map_none]⟩
        · exact .inr ⟨hbare, by rw [hsome, Option.map_some]⟩
      · exact .inl ⟨hasBareSign_cons_iff.mpr (.inl ⟨rfl, hdigits⟩),
          decode?_of_not_startsWithDigits hdigits⟩
    · rw [hasBareSign_cons_of_ne hc, decode?_cons_of_ne hc, List.flatMap_cons,
        unescape_append (signByte_not_mem_utf8EncodeChar hc)]
      rcases decode?_cases cs with ⟨hbare, hnone⟩ | ⟨hbare, hsome⟩
      · exact .inl ⟨hbare, by rw [hnone, Option.map_none]⟩
      · exact .inr ⟨hbare, by rw [hsome, Option.map_some]⟩

theorem decode?_eq_none_iff : decode? cs = none ↔ HasBareSign cs := by
  rcases decode?_cases cs with ⟨hbare, hnone⟩ | ⟨hbare, hsome⟩
  · simp [hbare, hnone]
  · simp [hbare, hsome]

theorem decode?_eq_some_iff :
    decode? cs = some bytes ↔
      ¬ HasBareSign cs ∧ unescape (cs.flatMap String.utf8EncodeChar) = bytes := by
  rcases decode?_cases cs with ⟨hbare, hnone⟩ | ⟨hbare, hsome⟩
  · simp [hbare, hnone]
  · simp [hbare, hsome]

end Percent
end Text
end AmdBundle
