import AmdBundle.Text.Split

/-!
# AmdBundle.Proofs.Text.Separators — separators between parts and in them

A joined text has the separators between its parts and those that are in the parts (`count_join`);
a cut one has a part more than it has separators (`length_splitOn`), and an empty last part if it
ends with one (`getLast?_eq_sep_iff`).
-/

namespace AmdBundle
namespace Text

variable {sep c : Char}

theorem mem_join_iff {parts : List (List Char)} (hc : c ≠ sep) :
    c ∈ join sep parts ↔ ∃ part ∈ parts, c ∈ part := by
  induction parts with
  | nil => simp [join]
  | cons part parts ih =>
    cases parts with
    | nil => simp [join]
    | cons next parts =>
      rw [join, List.mem_append, List.mem_cons, ih]
      simp [hc]

theorem count_join (sep : Char) {parts : List (List Char)} (h : parts ≠ []) :
    (join sep parts).count sep + 1 = parts.length + parts.flatten.count sep := by
  induction parts with
  | nil => exact absurd rfl h
  | cons part parts ih =>
    cases parts with
    | nil => simp [join, Nat.add_comm]
    | cons next parts =>
      have hrest := ih (List.cons_ne_nil _ _)
      rw [join, List.count_append, List.count_cons_self, List.flatten_cons, List.count_append,
        List.length_cons]
      omega

theorem count_flatten_eq_zero_iff {parts : List (List Char)} :
    parts.flatten.count sep = 0 ↔ ∀ part ∈ parts, sep ∉ part := by
  rw [List.count_eq_zero, List.mem_flatten]
  simp

theorem length_splitOn (sep : Char) (cs : List Char) :
    (splitOn sep cs).length = cs.count sep + 1 := by
  have hparts : (splitOn sep cs).flatten.count sep = 0 :=
    count_flatten_eq_zero_iff.mpr fun _ hpart => not_mem_of_mem_splitOn hpart
  have hcount := count_join sep (splitOn_ne_nil sep cs)
  rw [join_splitOn, hparts] at hcount
  omega

theorem mem_of_mem_splitOn {cs part : List Char} (h : part ∈ splitOn sep cs) (hc : c ∈ part) :
    c ∈ cs := by
  have hne : c ≠ sep := by
    rintro rfl
    exact not_mem_of_mem_splitOn h hc
  rw [← join_splitOn sep cs]
  exact (mem_join_iff hne).mpr ⟨part, h, hc⟩

/-- A text ends with a separator exactly if its last part is empty and is not the only one. -/
theorem getLast?_eq_sep_iff {cs : List Char} :
    cs.getLast? = some sep ↔ cs ≠ [] ∧ (splitOn sep cs).getLast? = some [] := by
  induction cs with
  | nil => simp
  | cons c cs ih =>
    by_cases hcs : cs = []
    · subst hcs
      by_cases hc : c = sep <;> simp [splitOn, hc]
    · have hlast : (c :: cs).getLast? = cs.getLast? := by
        rw [List.getLast?_cons, List.getLast?_eq_some_getLast hcs, Option.getD_some]
      rw [hlast, ih, splitOn]
      cases hs : splitOn sep cs with
      | nil => exact absurd hs (splitOn_ne_nil sep cs)
      | cons part parts =>
        by_cases hc : c = sep
        · simp [hc, hcs, List.getLast?_cons_cons]
        · rw [if_neg hc]
          cases parts with
          | nil =>
            have hjoin := join_splitOn sep cs
            rw [hs, join] at hjoin
            simp [hjoin, hcs]
          | cons next parts => simp [hcs, List.getLast?_cons_cons]

end Text
end AmdBundle
