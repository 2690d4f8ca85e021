import AmdBundle.AbsMid.Marker
import AmdBundle.Proofs.Text.Percent

/-!
# AmdBundle.Proofs.AbsMid.Marker — a marker that is attached is found again

An id attached to a request comes off again, and leaves the request as it was
(`detach_attach`): whatever the two texts are, the last marker is the one attached, its value goes
to the end of the text, and it decodes to the id.
-/

namespace AmdBundle
namespace AbsMid
namespace Marker

open Text

/-- Whether a character may stand before the key of a marker. -/
def opens (c : Char) : Bool := c == '?' || c == '&'

theorem valueAt?_eq_none {c : Char} (h : opens c = false) (cs : List Char) :
    valueAt? (c :: cs) = none := by
  have hne : ¬ (c = '?' ∨ c = '&') := by simpa [opens] using h
  rw [valueAt?, if_neg hne]

theorem valueAt?_key {c : Char} (h : opens c = true) {value : List Char}
    (hvalue : value.any endsValue = false) :
    valueAt? (c :: (key.toList ++ value)) = some value := by
  have hopens : c = '?' ∨ c = '&' := by simpa [opens] using h
  rw [valueAt?, if_pos hopens, isPrefixOf?_eq_some_iff.mpr rfl]
  simp [hvalue]

theorem find?_eq_none {cs : List Char} (h : ∀ c ∈ cs, opens c = false) : find? cs = none := by
  induction cs with
  | nil => rfl
  | cons c cs ih =>
    rw [find?, ih fun d hd => h d (List.mem_cons_of_mem _ hd)]
    show (valueAt? (c :: cs)).map _ = none
    rw [valueAt?_eq_none (h c List.mem_cons_self), Option.map_none]

theorem find?_cons_of_some {c : Char} {cs before value : List Char}
    (h : find? cs = some (before, value)) : find? (c :: cs) = some (c :: before, value) := by
  rw [find?, h]

/-- The last marker is the one behind which nothing can open another. -/
theorem find?_append_marker (before : List Char) {c : Char} (hopens : opens c = true)
    {value : List Char} (hvalue : value.any endsValue = false)
    (hlast : ∀ d ∈ key.toList ++ value, opens d = false) :
    find? (before ++ c :: (key.toList ++ value)) = some (before, value) := by
  induction before with
  | nil =>
    rw [List.nil_append, find?, find?_eq_none hlast]
    show (valueAt? _).map _ = _
    rw [valueAt?_key hopens hvalue, Option.map_some]
  | cons d before ih =>
    rw [List.cons_append]
    exact find?_cons_of_some ih

theorem ne_of_mem_encode {absMid : String} {c : Char} (h : c ∈ (Percent.encode absMid).toList) :
    endsValue c = false ∧ opens c = false := by
  have hne : ¬ (c = '!' ∨ c = '&' ∨ c = '?') := by
    rintro (rfl | rfl | rfl) <;> exact absurd (Percent.of_mem_encode h) (by decide)
  simp only [not_or] at hne
  obtain ⟨hbang, hand, hquestion⟩ := hne
  simp [endsValue, opens, hbang, hand, hquestion]

theorem decodeValue_encode (absMid : String) :
    decodeValue (Percent.encode absMid).toList = .ok absMid := by
  rw [decodeValue, Percent.decode?_encode]
  simp only [ofUtf8?_utf8Bytes]

theorem toList_attach (request absMid : String) :
    ∃ c, opens c = true ∧
      (attach request absMid).toList =
        request.toList ++ c :: (key.toList ++ (Percent.encode absMid).toList) := by
  rw [attach]
  split
  · exact ⟨'&', rfl, by simp⟩
  · exact ⟨'?', rfl, by simp⟩

/-- **Round trip.**  The marker that was attached comes off again: what is left is the request, and
what it carried is the id. -/
theorem detach_attach (request absMid : String) :
    detach (attach request absMid) = .ok (some (request, absMid)) := by
  obtain ⟨c, hopens, hcut⟩ := toList_attach request absMid
  have hvalue : (Percent.encode absMid).toList.any endsValue = false := by
    rw [List.any_eq_false]
    intro d hd
    simp [(ne_of_mem_encode hd).1]
  have hlast : ∀ d ∈ key.toList ++ (Percent.encode absMid).toList, opens d = false := by
    intro d hd
    rcases List.mem_append.mp hd with hkey | hcoded
    · have hall : key.toList.all (fun d => !opens d) = true := by decide
      simpa using List.all_eq_true.mp hall d hkey
    · exact (ne_of_mem_encode hcoded).2
  rw [detach, hcut, find?_append_marker request.toList hopens hvalue hlast]
  simp only [decodeValue_encode, String.ofList_toList]

end Marker
end AbsMid
end AmdBundle
