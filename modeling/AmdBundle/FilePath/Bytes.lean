import AmdBundle.FilePath.Kind
import AmdBundle.Proofs.FilePath.Respelling
import AmdBundle.Proofs.Text.Lossy

/-!
# AmdBundle.FilePath.Bytes — paths of bytes

The paths of a file system are bytes, which need not be the bytes of a text.  Where they are not, a
replacement is shown, so two paths can be shown as one text.
-/

namespace AmdBundle

/-- A path as bytes. -/
structure BytePath where
  bytes : List UInt8
  deriving DecidableEq, Repr

namespace BytePath

open Text

def ofText (path : String) : BytePath := ⟨utf8Bytes path⟩

def display (path : BytePath) : String := lossy path.bytes

def slash : UInt8 := 0x2F

/-- Whether a name can be put behind the path as it is. -/
def isOpen (dir : BytePath) : Bool :=
  dir.bytes.isEmpty || dir.bytes.getLast? == some slash

/-- `rest` taken from the directory `dir`; an absolute `rest` stands alone. -/
def join (dir : BytePath) (rest : String) : BytePath :=
  if FilePath.isAbsolute rest then ofText rest
  else if dir.isOpen then ⟨dir.bytes ++ utf8Bytes rest⟩
  else ⟨dir.bytes ++ slash :: utf8Bytes rest⟩

/-- The text with one character for each byte, which has slashes and dots where the path has them.
-/
def spelled (path : BytePath) : String := String.ofList (path.bytes.map Char.ofUInt8)

/-- Where the path leads; a name is given by the characters for its bytes. -/
def location (path : BytePath) : Location := Location.ofText path.spelled

/-! ### The letters that a path is spelled and shown in -/

/-- The bytes of characters that stand for one byte each. -/
def shown (cs : List Char) : List Char := lossyFrom none (cs.map Char.toUInt8)

/-- The characters for the bytes of a text. -/
def encoded (cs : List Char) : List Char :=
  (cs.flatMap String.utf8EncodeChar).map Char.ofUInt8

theorem toUInt8_ofUInt8 (b : UInt8) : (Char.ofUInt8 b).toUInt8 = b :=
  UInt8.toUInt8_toUInt32 b

theorem toNat_toUInt8 {c : Char} (h : c.toNat < 256) : c.toUInt8.toNat = c.toNat :=
  (UInt32.toNat_toUInt8 c.val).trans (Nat.mod_eq_of_lt h)

theorem ofUInt8_toUInt8 {c : Char} (h : c.toNat < 256) : Char.ofUInt8 c.toUInt8 = c := by
  rw [← Char.toNat_inj]
  exact (UInt8.toNat_toUInt32 c.toUInt8).trans (toNat_toUInt8 h)

theorem shown_of_isPlain {cs : List Char} (h : ∀ c ∈ cs, IsPlain c) : shown cs = cs := by
  induction cs with
  | nil => rfl
  | cons c cs ih =>
    have hlt : c.toNat < 128 := (h c List.mem_cons_self).2
    have hc : c.toUInt8.toNat = c.toNat := toNat_toUInt8 (by omega)
    have hrest : shown cs = cs := ih fun d hd => h d (List.mem_cons_of_mem _ hd)
    rw [shown, List.map_cons, lossyFrom_cons_of_lt (by simp) (by omega), hc, Char.ofNat_toNat]
    exact congrArg (c :: ·) hrest

theorem respelling_shown : Respelling (fun c => c.toNat < 256) shown where
  slash segment cs := by
    rw [shown, List.map_append, List.map_cons, lossyFrom_append_of_lt (by simp) (by decide)]
    rfl
  not_mem := by
    intro segment hknown hslash hmem
    obtain ⟨b, hb, hnumber⟩ := exists_of_mem_lossyFrom (by simp) hmem (by simp [IsPlain])
    obtain ⟨c, hc, rfl⟩ := List.mem_map.mp hb
    rw [toNat_toUInt8 (hknown c hc)] at hnumber
    obtain rfl : c = '/' := Char.toNat_inj.mp hnumber
    exact hslash hc
  dots := by
    intro segment dots hknown hdots
    have hplain : ∀ c ∈ dots, IsPlain c := by
      intro c hc
      rw [hdots c hc]
      exact ⟨by decide, by decide⟩
    constructor
    · intro hshown
      change lossyFrom none (segment.map Char.toUInt8) = dots at hshown
      have hself : (segment.map Char.toUInt8).map Char.ofUInt8 = segment := by
        rw [List.map_map]
        exact (List.map_congr_left fun c hc => ofUInt8_toUInt8 (hknown c hc)).trans
          (List.map_id segment)
      rw [← hshown, lossyFrom_eq_map (hshown ▸ hplain), hself]
    · rintro rfl
      exact shown_of_isPlain hplain

theorem shown_encoded (cs : List Char) : shown (encoded cs) = cs := by
  have hbytes : Char.toUInt8 ∘ Char.ofUInt8 = id := funext toUInt8_ofUInt8
  rw [shown, encoded, List.map_map, hbytes, List.map_id, lossyFrom_flatMap]

theorem encoded_of_dots {dots : List Char} (h : ∀ c ∈ dots, c = '.') : encoded dots = dots := by
  rw [List.eq_replicate_of_mem h]
  generalize dots.length = n
  induction n with
  | zero => rfl
  | succ n ih => exact congrArg ('.' :: ·) ih

theorem respelling_encoded : Respelling (fun _ => True) encoded where
  slash segment cs := by
    rw [encoded, List.flatMap_append, List.flatMap_cons, List.map_append, List.map_append]
    rfl
  not_mem := by
    intro segment _ hslash hmem
    obtain ⟨before, behind, hsplit⟩ := List.append_of_mem hmem
    have hself := shown_encoded segment
    rw [hsplit, respelling_shown.slash] at hself
    exact hslash (hself ▸ List.mem_append_right _ List.mem_cons_self)
  dots := by
    intro segment dots _ hdots
    constructor
    · intro hencoded
      rw [← encoded_of_dots hdots] at hencoded
      rw [← shown_encoded segment, hencoded, shown_encoded]
    · rintro rfl
      exact encoded_of_dots hdots

/-! ### The laws -/

theorem spelled_known (path : BytePath) : ∀ c ∈ path.spelled.toList, c.toNat < 256 := by
  intro c hc
  rw [spelled, String.toList_ofList] at hc
  obtain ⟨b, -, rfl⟩ := List.mem_map.mp hc
  exact b.toNat_lt

theorem display_eq_shown (path : BytePath) :
    path.display = String.ofList (shown path.spelled.toList) := by
  have hbytes : Char.toUInt8 ∘ Char.ofUInt8 = id := funext toUInt8_ofUInt8
  rw [display, lossy, spelled, String.toList_ofList, shown, List.map_map, hbytes, List.map_id]

theorem spelled_ofText (path : String) :
    (ofText path).spelled = String.ofList (encoded path.toList) := by
  rw [spelled, ofText, utf8Bytes_eq_flatMap]
  rfl

theorem spelled_append (xs ys : List UInt8) :
    spelled ⟨xs ++ ys⟩ = spelled ⟨xs⟩ ++ spelled ⟨ys⟩ := by
  simp [spelled]

theorem spelled_slash (ys : List UInt8) : spelled ⟨slash :: ys⟩ = "/" ++ spelled ⟨ys⟩ :=
  spelled_append [slash] ys

theorem isOpen_spelled (dir : BytePath) :
    (dir.spelled.isEmpty || dir.spelled.toList.getLast? == some '/') = dir.isOpen := by
  rw [isOpen]
  refine congrArg₂ or ?_ ?_
  · rw [Bool.eq_iff_iff, String.isEmpty_iff, List.isEmpty_iff, ← String.toList_inj]
    simp [spelled]
  · rw [Bool.eq_iff_iff, beq_iff_eq, beq_iff_eq, spelled, String.toList_ofList, List.getLast?_map,
      Option.map_eq_some_iff]
    constructor
    · rintro ⟨b, hb, hslash⟩
      rw [hb, ← toUInt8_ofUInt8 b, hslash]
      rfl
    · exact fun hb => ⟨slash, hb, rfl⟩

theorem isOpen_display (dir : BytePath) :
    (dir.display.isEmpty || dir.display.toList.getLast? == some '/') = dir.isOpen := by
  rw [← isOpen_spelled, display_eq_shown]
  refine congrArg₂ or ?_ ?_
  · rw [Bool.eq_iff_iff, String.isEmpty_iff, String.isEmpty_iff, ← String.toList_eq_nil_iff,
      ← String.toList_eq_nil_iff, String.toList_ofList]
    exact respelling_shown.eq_nil_iff dir.spelled_known
  · rw [Bool.eq_iff_iff, beq_iff_eq, beq_iff_eq, String.toList_ofList]
    exact respelling_shown.getLast?_eq_slash_iff dir.spelled_known

theorem spelled_join (dir : BytePath) (rest : String) :
    (join dir rest).spelled = FilePath.join dir.spelled (ofText rest).spelled := by
  have habsolute : FilePath.isAbsolute (ofText rest).spelled = FilePath.isAbsolute rest := by
    rw [spelled_ofText, respelling_encoded.isAbsolute (by simp)]
  rw [join, FilePath.join, habsolute, isOpen_spelled]
  split
  · rfl
  · split
    · exact spelled_append dir.bytes (utf8Bytes rest)
    · rw [String.append_assoc, spelled_append, spelled_slash]
      rfl

theorem lossy_append_slash (bytes : List UInt8) (rest : String) :
    lossy (bytes ++ slash :: utf8Bytes rest) = lossy bytes ++ "/" ++ rest := by
  have hrest : lossyFrom none (utf8Bytes rest) = rest.toList := by
    rw [utf8Bytes_eq_flatMap, lossyFrom_flatMap]
  rw [lossy, lossyFrom_append_of_lt (by simp) (by decide), hrest, lossy, ← String.toList_inj]
  simp [slash]

theorem display_join (dir : BytePath) (rest : String) :
    (join dir rest).display = FilePath.join dir.display rest := by
  rw [join, FilePath.join, isOpen_display]
  split
  · exact lossy_utf8Bytes rest
  · split
    · rename_i hopen
      rw [isOpen, Bool.or_eq_true, List.isEmpty_iff, beq_iff_eq, List.getLast?_eq_some_iff] at hopen
      obtain ⟨bytes⟩ := dir
      dsimp only at hopen ⊢
      obtain rfl | ⟨before, rfl⟩ := hopen
      · exact lossy_utf8Bytes rest
      · have hall : lossy (before ++ slash :: utf8Bytes rest) =
            lossy (before ++ slash :: utf8Bytes "") ++ rest := by
          rw [lossy_append_slash, lossy_append_slash, String.append_empty]
        rw [List.append_assoc]
        exact hall
    · exact lossy_append_slash dir.bytes rest

/-- A path as bytes is shown with a replacement for what is not UTF-8 in it. -/
instance : PathKind BytePath where
  ofText := ofText
  join := join
  location := location
  display := display
  display_ofText := lossy_utf8Bytes
  display_join := display_join
  location_ofText {a b} h := by
    rw [location, location, spelled_ofText, spelled_ofText]
    exact respelling_encoded.ofText_congr (by simp) (by simp) h
  location_display {a b} h := by
    rw [display_eq_shown, display_eq_shown]
    exact respelling_shown.ofText_congr a.spelled_known b.spelled_known h
  location_join {a b rest} h hrest := by
    rw [location, location, spelled_join, spelled_join]
    refine Location.ofText_join_congr h ?_
    rw [spelled_ofText, respelling_encoded.isAbsolute (by simp), hrest]

end BytePath
end AmdBundle
