import AmdBundle.Proofs.FilePath.Join
import AmdBundle.Proofs.Text.Separators
import Mathlib.Data.List.Basic

/-!
# AmdBundle.Proofs.FilePath.Respelling — paths in other letters

A text is written anew in other letters, its slashes and its segments of dots stay as they are, and
nothing becomes one of them (`Respelling`).  Then a path takes the same steps as before, under the
new names (`Respelling.ofText`).
-/

namespace AmdBundle

open Text

/-- A way to write anew the texts that are made of the given characters. -/
structure Respelling (known : Char → Prop) (f : List Char → List Char) : Prop where
  slash : ∀ segment cs, f (segment ++ '/' :: cs) = f segment ++ '/' :: f cs
  not_mem : ∀ {segment}, (∀ c ∈ segment, known c) → '/' ∉ segment → '/' ∉ f segment
  dots : ∀ {segment dots}, (∀ c ∈ segment, known c) → (∀ c ∈ dots, c = '.') →
    (f segment = dots ↔ segment = dots)

def Step.respell (f : List Char → List Char) : Step → Step
  | .down name => .down (String.ofList (f name.toList))
  | .up => .up
  | .stay => .stay

namespace Respelling

variable {known : Char → Prop} {f : List Char → List Char} {segment cs : List Char}

theorem splitOn (h : Respelling known f) (hcs : ∀ c ∈ cs, known c) :
    Text.splitOn '/' (f cs) = (Text.splitOn '/' cs).map f := by
  have hparts : ∀ part ∈ Text.splitOn '/' cs, (∀ c ∈ part, known c) ∧ '/' ∉ part := fun part hpart =>
    ⟨fun c hc => hcs c (mem_of_mem_splitOn hpart hc), not_mem_of_mem_splitOn hpart⟩
  have hne := splitOn_ne_nil '/' cs
  have hjoin := join_splitOn '/' cs
  generalize Text.splitOn '/' cs = parts at hparts hne hjoin
  rw [← hjoin]
  clear hjoin hcs
  induction parts with
  | nil => exact absurd rfl hne
  | cons part parts ih =>
    have hpart : '/' ∉ f part := h.not_mem (hparts part List.mem_cons_self).1
      (hparts part List.mem_cons_self).2
    cases parts with
    | nil => exact splitOn_of_not_mem hpart
    | cons next parts =>
      rw [join, h.slash, splitOn_append_cons hpart,
        ih (fun p hp => hparts p (List.mem_cons_of_mem _ hp)) (List.cons_ne_nil _ _)]
      rfl

theorem eq_nil_iff (h : Respelling known f) (hknown : ∀ c ∈ segment, known c) :
    f segment = [] ↔ segment = [] := h.dots hknown (by simp)

theorem eq_dot_iff (h : Respelling known f) (hknown : ∀ c ∈ segment, known c) :
    f segment = ['.'] ↔ segment = ['.'] := h.dots hknown (by simp)

theorem isIdle (h : Respelling known f) (hknown : ∀ c ∈ segment, known c) :
    FilePath.isIdle (f segment) = FilePath.isIdle segment := by
  rw [Bool.eq_iff_iff]
  simp [FilePath.isIdle, h.eq_nil_iff hknown, h.eq_dot_iff hknown]

theorem stepOf? (h : Respelling known f) (hknown : ∀ c ∈ segment, known c) :
    Location.stepOf? (f segment) = (Location.stepOf? segment).map (Step.respell f) := by
  have hup : f segment = ['.', '.'] ↔ segment = ['.', '.'] := h.dots hknown (by simp)
  rw [Location.stepOf?, Location.stepOf?, h.isIdle hknown]
  simp only [hup]
  split
  · rfl
  · split
    · rfl
    · simp [Step.respell]

theorem startSteps (h : Respelling known f) (hknown : ∀ c ∈ segment, known c) :
    Location.startSteps (f segment) = (Location.startSteps segment).map (Step.respell f) := by
  unfold Location.startSteps
  simp only [h.eq_nil_iff hknown, h.eq_dot_iff hknown, h.stepOf? hknown]
  split
  · rfl
  · split
    · rfl
    · cases Location.stepOf? segment <;> rfl

theorem tailSteps (h : Respelling known f) {segments : List (List Char)}
    (hknown : ∀ segment ∈ segments, ∀ c ∈ segment, known c) :
    Location.tailSteps (segments.map f) = (Location.tailSteps segments).map (Step.respell f) := by
  rw [Location.tailSteps, Location.tailSteps, List.filterMap_map, List.map_filterMap]
  exact List.filterMap_congr fun segment hmem => h.stepOf? (hknown segment hmem)

theorem endsIdle (h : Respelling known f) {segments : List (List Char)}
    (hknown : ∀ segment ∈ segments, ∀ c ∈ segment, known c) :
    Location.endsIdle (segments.map f) = Location.endsIdle segments := by
  rw [Location.endsIdle, Location.endsIdle, List.getLast?_map]
  cases hlast : segments.getLast? with
  | none => rfl
  | some last => exact h.isIdle (hknown last (List.mem_of_getLast? hlast))

/-- Written anew, a path takes the same steps under the new names. -/
theorem ofText (h : Respelling known f) {path : String} (hpath : ∀ c ∈ path.toList, known c) :
    Location.ofText (String.ofList (f path.toList)) =
      ⟨(Location.ofText path).absolute, (Location.ofText path).steps.map (Step.respell f),
        (Location.ofText path).directory⟩ := by
  have hparts : ∀ part ∈ Text.splitOn '/' path.toList, ∀ c ∈ part, known c := fun part hpart c hc =>
    hpath c (mem_of_mem_splitOn hpart hc)
  cases hs : Text.splitOn '/' path.toList with
  | nil => exact absurd hs (splitOn_ne_nil _ _)
  | cons first rest =>
    rw [hs] at hparts
    have hfirst := hparts first List.mem_cons_self
    have hrest : ∀ part ∈ rest, ∀ c ∈ part, known c := fun part hpart =>
      hparts part (List.mem_cons_of_mem _ hpart)
    have hnew : Text.splitOn '/' (String.ofList (f path.toList)).toList = f first :: rest.map f := by
      rw [String.toList_ofList, h.splitOn hpath, hs, List.map_cons]
    have hempty : (f first).isEmpty = first.isEmpty := by
      rw [Bool.eq_iff_iff, List.isEmpty_iff, List.isEmpty_iff, h.eq_nil_iff hfirst]
    rw [Location.ofText_of_splitOn hnew, Location.ofText_of_splitOn hs, hempty, List.isEmpty_map,
      h.startSteps hfirst, h.tailSteps hrest, h.endsIdle hrest, List.map_append]

theorem isAbsolute (h : Respelling known f) {path : String} (hpath : ∀ c ∈ path.toList, known c) :
    FilePath.isAbsolute (String.ofList (f path.toList)) = FilePath.isAbsolute path := by
  rw [← Location.absolute_ofText, ← Location.absolute_ofText, h.ofText hpath]

theorem getLast?_eq_slash_iff (h : Respelling known f) (hcs : ∀ c ∈ cs, known c) :
    (f cs).getLast? = some '/' ↔ cs.getLast? = some '/' := by
  rw [getLast?_eq_sep_iff, getLast?_eq_sep_iff, h.splitOn hcs, List.getLast?_map, ne_eq, ne_eq,
    h.eq_nil_iff hcs, Option.map_eq_some_iff]
  refine and_congr_right fun _ => ⟨?_, fun hlast => ⟨[], hlast, (h.eq_nil_iff (by simp)).mpr rfl⟩⟩
  rintro ⟨last, hlast, hempty⟩
  have hknown : ∀ c ∈ last, known c := fun c hc =>
    hcs c (mem_of_mem_splitOn (List.mem_of_getLast? hlast) hc)
  rw [hlast, (h.eq_nil_iff hknown).mp hempty]

theorem ofText_congr (h : Respelling known f) {a b : String} (ha : ∀ c ∈ a.toList, known c)
    (hb : ∀ c ∈ b.toList, known c) (hsame : Location.ofText a = Location.ofText b) :
    Location.ofText (String.ofList (f a.toList)) = Location.ofText (String.ofList (f b.toList)) := by
  rw [h.ofText ha, h.ofText hb, hsame]

end Respelling
end AmdBundle
