import AmdBundle.Proofs.AbsMid.Marker
import AmdBundle.Proofs.Text.Unescape

/-!
# AmdBundle.Proofs.AbsMid.Acceptance — which requests carry an absolute id

A request can often be cut in several ways into what is before a marker and the value behind it
(`CutAtMarker`): a key may be part of a value, and what follows a key may end in no value at all.
`find?` gives the last cut there is (`find?_spec`), so `detach` says of every request whether it
carries an id, which one, and what is wrong with it if it does not decode (`detach_iff`).
-/

namespace AmdBundle
namespace AbsMid
namespace Marker

open Text

variable {c : Char} {cs before value : List Char}

/-! ### The last cut of a list of characters -/

theorem any_endsValue_eq_false_iff :
    value.any endsValue = false ↔ '!' ∉ value ∧ '&' ∉ value := by
  rw [List.any_eq_false]
  constructor
  · intro h
    exact ⟨fun hmem => h '!' hmem rfl, fun hmem => h '&' hmem rfl⟩
  · rintro ⟨hbang, hand⟩ c hc hends
    have hcases : c = '!' ∨ c = '&' := by simpa [endsValue] using hends
    rcases hcases with rfl | rfl
    · exact hbang hc
    · exact hand hc

/-- The characters are `before`, and from there on a marker with the value. -/
def MarkedAt (cs before value : List Char) : Prop :=
  ∃ c, opens c = true ∧ cs = before ++ c :: (key.toList ++ value) ∧ value.any endsValue = false

theorem valueAt?_eq_some_iff : valueAt? cs = some value ↔ MarkedAt cs [] value := by
  constructor
  · intro h
    cases cs with
    | nil => simp [valueAt?] at h
    | cons c cs =>
      by_cases hopens : opens c = true
      · have hcases : c = '?' ∨ c = '&' := by simpa [opens] using hopens
        rw [valueAt?, if_pos hcases] at h
        split at h
        · rename_i rest hrest
          split at h
          · simp at h
          · rename_i hvalue
            obtain rfl := Option.some.inj h
            refine ⟨c, hopens, ?_, by simpa using hvalue⟩
            rw [isPrefixOf?_eq_some_iff.mp hrest, List.nil_append]
        · simp at h
      · rw [valueAt?_eq_none (by simpa using hopens)] at h
        simp at h
  · rintro ⟨c, hopens, rfl, hvalue⟩
    exact valueAt?_key hopens hvalue

theorem MarkedAt.cases_cons (h : MarkedAt (c :: cs) before value) :
    before = [] ∧ valueAt? (c :: cs) = some value ∨
      ∃ front, before = c :: front ∧ MarkedAt cs front value := by
  cases before with
  | nil => exact .inl ⟨rfl, valueAt?_eq_some_iff.mpr h⟩
  | cons d front =>
    obtain ⟨opening, hopens, hcut, hvalue⟩ := h
    obtain ⟨rfl, rfl⟩ := List.cons.inj hcut
    exact .inr ⟨front, rfl, opening, hopens, rfl, hvalue⟩

theorem MarkedAt.cons (h : MarkedAt cs before value) (c : Char) :
    MarkedAt (c :: cs) (c :: before) value := by
  obtain ⟨opening, hopens, rfl, hvalue⟩ := h
  exact ⟨opening, hopens, rfl, hvalue⟩

/-- What is found is a cut, and the one with the most before it; if nothing is found there is none.
-/
theorem find?_spec (cs : List Char) :
    (find? cs = none ∧ ∀ before value, ¬ MarkedAt cs before value) ∨
      ∃ before value, find? cs = some (before, value) ∧ MarkedAt cs before value ∧
        ∀ other otherValue, MarkedAt cs other otherValue → other.length ≤ before.length := by
  induction cs with
  | nil =>
    refine .inl ⟨rfl, fun before value => ?_⟩
    rintro ⟨c, -, hcut, -⟩
    simp at hcut
  | cons c cs ih =>
    rcases ih with ⟨hnone, hno⟩ | ⟨before, value, hfound, hcut, hlast⟩
    · have hstep : find? (c :: cs) = (valueAt? (c :: cs)).map ([], ·) := by rw [find?, hnone]
      cases hvalue : valueAt? (c :: cs) with
      | none =>
        refine .inl ⟨by rw [hstep, hvalue, Option.map_none], fun before value h => ?_⟩
        rcases h.cases_cons with ⟨-, hsome⟩ | ⟨front, -, hfront⟩
        · rw [hvalue] at hsome
          simp at hsome
        · exact hno front value hfront
      | some value =>
        refine .inr ⟨[], value, by rw [hstep, hvalue, Option.map_some],
          valueAt?_eq_some_iff.mp hvalue, fun other otherValue h => ?_⟩
        rcases h.cases_cons with ⟨rfl, -⟩ | ⟨front, -, hfront⟩
        · exact Nat.le_refl _
        · exact absurd hfront (hno front otherValue)
    · refine .inr ⟨c :: before, value, find?_cons_of_some hfound, hcut.cons c,
        fun other otherValue h => ?_⟩
      rcases h.cases_cons with ⟨rfl, -⟩ | ⟨front, rfl, hfront⟩
      · exact Nat.zero_le _
      · exact Nat.succ_le_succ (hlast front otherValue hfront)

/-! ### Requests -/

/-- The request is `before`, a question mark or an ampersand, the key, and a value in which there is
no exclamation mark and no ampersand. -/
structure CutAtMarker (request before value : String) : Prop where
  cut : ∃ opening, (opening = "?" ∨ opening = "&") ∧ request = before ++ opening ++ key ++ value
  no_bang : '!' ∉ value.toList
  no_and : '&' ∉ value.toList

/-- Of all such cuts this one has the longest `before`. -/
structure CutAtLastMarker (request before value : String) : Prop
    extends CutAtMarker request before value where
  longest : ∀ other otherValue, CutAtMarker request other otherValue → other.length ≤ before.length

theorem cutAtMarker_iff {request before value : String} :
    CutAtMarker request before value ↔ MarkedAt request.toList before.toList value.toList := by
  constructor
  · rintro ⟨⟨opening, hopening, rfl⟩, hbang, hand⟩
    rcases hopening with rfl | rfl
    · exact ⟨'?', rfl, by simp, any_endsValue_eq_false_iff.mpr ⟨hbang, hand⟩⟩
    · exact ⟨'&', rfl, by simp, any_endsValue_eq_false_iff.mpr ⟨hbang, hand⟩⟩
  · rintro ⟨c, hopens, hcut, hvalue⟩
    obtain ⟨hbang, hand⟩ := any_endsValue_eq_false_iff.mp hvalue
    refine ⟨⟨String.singleton c, ?_, ?_⟩, hbang, hand⟩
    · have hcases : c = '?' ∨ c = '&' := by simpa [opens] using hopens
      rcases hcases with rfl | rfl
      · exact .inl rfl
      · exact .inr rfl
    · rw [← String.toList_inj, hcut]
      simp

theorem MarkedAt.eq_of_length_eq {other otherValue : List Char} (h : MarkedAt cs before value)
    (h' : MarkedAt cs other otherValue) (hlength : before.length = other.length) :
    before = other ∧ value = otherValue := by
  obtain ⟨c, -, hcut, -⟩ := h
  obtain ⟨d, -, hcut', -⟩ := h'
  obtain ⟨hbefore, hbehind⟩ := List.append_inj (hcut.symm.trans hcut') hlength
  exact ⟨hbefore, List.append_cancel_left (List.cons.inj hbehind).2⟩

section Request

variable {request before value : String}

theorem CutAtLastMarker.eq {other otherValue : String} (h : CutAtLastMarker request before value)
    (h' : CutAtLastMarker request other otherValue) : before = other ∧ value = otherValue := by
  have hlength : before.toList.length = other.toList.length := by
    rw [String.length_toList, String.length_toList]
    exact Nat.le_antisymm (h'.longest _ _ h.toCutAtMarker) (h.longest _ _ h'.toCutAtMarker)
  obtain ⟨hbefore, hvalue⟩ := (cutAtMarker_iff.mp h.toCutAtMarker).eq_of_length_eq
    (cutAtMarker_iff.mp h'.toCutAtMarker) hlength
  exact ⟨String.toList_inj.mp hbefore, String.toList_inj.mp hvalue⟩

theorem find?_request (request : String) :
    (find? request.toList = none ∧ ∀ before value, ¬ CutAtMarker request before value) ∨
      ∃ before value, find? request.toList = some (before.toList, value.toList) ∧
        CutAtLastMarker request before value := by
  rcases find?_spec request.toList with ⟨hnone, hno⟩ | ⟨before, value, hfound, hcut, hlast⟩
  · exact .inl ⟨hnone, fun before value h => hno _ _ (cutAtMarker_iff.mp h)⟩
  · have htexts : CutAtMarker request (String.ofList before) (String.ofList value) :=
      cutAtMarker_iff.mpr (by simpa using hcut)
    refine .inr ⟨String.ofList before, String.ofList value, by simpa using hfound, htexts,
      fun other otherValue h => ?_⟩
    rw [← String.length_toList, ← String.length_toList, String.toList_ofList]
    exact hlast _ _ (cutAtMarker_iff.mp h)

theorem find?_of_cutAtLastMarker (h : CutAtLastMarker request before value) :
    find? request.toList = some (before.toList, value.toList) := by
  rcases find?_request request with ⟨-, hno⟩ | ⟨other, otherValue, hfound, hlast⟩
  · exact absurd h.toCutAtMarker (hno before value)
  · obtain ⟨rfl, rfl⟩ := h.eq hlast
    exact hfound

/-! ### Values -/

/-- A value with a bare percent sign is refused for it; any other stands for the text that has its
bytes with the escapes replaced, and is refused if no text has them. -/
theorem decodeValue_cases (value : String) :
    Percent.HasBareSign value.toList ∧ decodeValue value.toList = .error ⟨value, .badEscape⟩ ∨
      ¬ Percent.HasBareSign value.toList ∧
        ((∀ text, utf8Bytes text ≠ Percent.unescape (utf8Bytes value)) ∧
            decodeValue value.toList = .error ⟨value, .invalidText⟩ ∨
          ∃ text, utf8Bytes text = Percent.unescape (utf8Bytes value) ∧
            decodeValue value.toList = .ok text) := by
  rw [decodeValue, String.ofList_toList]
  by_cases hbare : Percent.HasBareSign value.toList
  · rw [Percent.decode?_eq_none_iff.mpr hbare]
    exact .inl ⟨hbare, rfl⟩
  · refine .inr ⟨hbare, ?_⟩
    have hbytes : Percent.decode? value.toList = some (Percent.unescape (utf8Bytes value)) :=
      Percent.decode?_eq_some_iff.mpr ⟨hbare, by rw [utf8Bytes_eq]⟩
    rw [hbytes]
    dsimp only
    cases htext : ofUtf8? (Percent.unescape (utf8Bytes value)) with
    | none =>
      refine .inl ⟨fun text hsame => ?_, rfl⟩
      rw [ofUtf8?_eq_some_iff.mpr hsame] at htext
      simp at htext
    | some text => exact .inr ⟨text, ofUtf8?_eq_some_iff.mp htext, rfl⟩

theorem detach_of_cutAtLastMarker (h : CutAtLastMarker request before value) :
    detach request = (decodeValue value.toList).map fun absMid => some (before, absMid) := by
  rw [detach, find?_of_cutAtLastMarker h]
  dsimp only
  rw [String.ofList_toList]
  cases decodeValue value.toList <;> rfl

theorem detach_eq_ok_none_iff :
    detach request = .ok none ↔ ∀ before value, ¬ CutAtMarker request before value := by
  rcases find?_request request with ⟨hnone, hno⟩ | ⟨before, value, -, hlast⟩
  · rw [detach, hnone]
    exact ⟨fun _ => hno, fun _ => rfl⟩
  · refine ⟨fun h => ?_, fun hno => absurd hlast.toCutAtMarker (hno before value)⟩
    rw [detach_of_cutAtLastMarker hlast] at h
    cases hvalue : decodeValue value.toList <;> simp [hvalue, Except.map] at h

end Request

/-- **Acceptance.**  A request carries no id exactly if it cannot be cut at a marker.  If it can,
the cut with the longest text before the marker counts: it is an error exactly if in the value a
percent sign is not followed by two hexadecimal digits, or no text has the bytes that it stands for;
and the error names the value and the first of the two faults that it has.  Else what comes off is
the id with these bytes, and what is left is the text before the marker. -/
theorem detach_iff (request : String) :
    (detach request = .ok none ↔ ∀ before value, ¬ CutAtMarker request before value) ∧
      ((∃ before value, CutAtMarker request before value) →
        ∃ before value, CutAtLastMarker request before value) ∧
      ∀ before value, CutAtLastMarker request before value →
        ((∃ error, detach request = .error error) ↔
          Percent.HasBareSign value.toList ∨
            ∀ text, utf8Bytes text ≠ Percent.unescape (utf8Bytes value)) ∧
        (∀ error, detach request = .error error → error.value = value ∧
          (error.fault = .badEscape ↔ Percent.HasBareSign value.toList)) ∧
        ∀ absMid, detach request = .ok (some (before, absMid)) ↔
          ¬ Percent.HasBareSign value.toList ∧
            utf8Bytes absMid = Percent.unescape (utf8Bytes value) := by
  refine ⟨detach_eq_ok_none_iff, ?_, fun before value hlast => ?_⟩
  · rintro ⟨before, value, hcut⟩
    rcases find?_request request with ⟨-, hno⟩ | ⟨other, otherValue, -, hlast⟩
    · exact absurd hcut (hno before value)
    · exact ⟨other, otherValue, hlast⟩
  · rw [detach_of_cutAtLastMarker hlast]
    rcases decodeValue_cases value with ⟨hbare, herror⟩ | ⟨hbare, ⟨hno, herror⟩ | ⟨text, hsame, hok⟩⟩
    · rw [herror]
      simp [Except.map, hbare]
    · rw [herror]
      simp [Except.map, hbare, hno]
    · rw [hok]
      rw [← hsame]
      simp [Except.map, hbare, utf8Bytes_inj, eq_comm]

end Marker
end AbsMid
end AmdBundle
