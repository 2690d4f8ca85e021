import AmdBundle.HasExpr

/-!
# AmdBundle.Proofs.HasExpr.Names — the names in a conditional

The features and ids of a conditional are cut out of its text at question marks and colons, so they
have neither in them (`avoids_readParts`), nor any character that the text does not have.
-/

namespace AmdBundle

namespace HasExpr

variable {c d : Char} {e : HasExpr}

/-- Whether a character is in none of the names of an expression. -/
def Avoids (c : Char) : HasExpr → Prop
  | mid id => c ∉ id.toList
  | cond feature whenTrue whenFalse =>
    c ∉ feature.toList ∧ whenTrue.Avoids c ∧ whenFalse.Avoids c

theorem Avoids.cons (h : e.Avoids c) (hne : c ≠ d) : (e.cons d).Avoids c := by
  cases e with
  | mid id => simpa [HasExpr.cons, Avoids, hne] using h
  | cond feature whenTrue whenFalse =>
    obtain ⟨hfeature, hbranches⟩ := h
    exact ⟨by simpa [hne] using hfeature, hbranches⟩

/-- What is read from a text has no separator in its names, and nothing that is not in the text. -/
theorem avoids_readParts {cs : List Char} (h : c ∉ cs ∨ c = '?' ∨ c = ':') :
    (readParts cs).1.Avoids c ∧ ∀ e ∈ (readParts cs).2, e.Avoids c := by
  have hempty : (mid "").Avoids c := by simp [Avoids]
  induction cs with
  | nil => exact ⟨hempty, by simp [readParts]⟩
  | cons d cs ih =>
    obtain ⟨hfirst, hothers⟩ := ih (h.imp_left fun hnot hmem => hnot (List.mem_cons_of_mem d hmem))
    rw [readParts]
    rcases hparts : readParts cs with ⟨first, others⟩
    rw [hparts] at hfirst hothers
    dsimp only at hfirst hothers ⊢
    split
    · exact ⟨hempty, List.forall_mem_cons.mpr ⟨hfirst, hothers⟩⟩
    · rename_i hcolon
      split
      · cases others with
        | nil => exact ⟨⟨by simp, hfirst, hempty⟩, by simp⟩
        | cons second others =>
          obtain ⟨hsecond, hothers⟩ := List.forall_mem_cons.mp hothers
          exact ⟨⟨by simp, hfirst, hsecond⟩, hothers⟩
      · rename_i hquestion
        have hne : c ≠ d := by
          rintro rfl
          rcases h with hnot | rfl | rfl
          · exact hnot List.mem_cons_self
          · exact hquestion rfl
          · exact hcolon rfl
        exact ⟨hfirst.cons hne, hothers⟩

theorem Avoids.resolve {feature : String → Option Bool} {normalize : String → String}
    (hnormalize : ∀ id : String, c ∉ id.toList → c ∉ (normalize id).toList) (h : e.Avoids c) :
    (e.resolve feature normalize).Avoids c := by
  induction e with
  | mid id =>
    rw [HasExpr.resolve]
    split
    · exact h
    · exact hnormalize id h
  | cond name whenTrue whenFalse ihTrue ihFalse =>
    obtain ⟨hname, htrue, hfalse⟩ := h
    rw [HasExpr.resolve]
    split
    · exact ihTrue htrue
    · exact ihFalse hfalse
    · exact ⟨hname, ihTrue htrue, ihFalse hfalse⟩

theorem Avoids.not_mem_text (hquestion : c ≠ '?') (hcolon : c ≠ ':') (h : e.Avoids c) :
    c ∉ e.text.toList := by
  induction e with
  | mid id => exact h
  | cond feature whenTrue whenFalse ihTrue ihFalse =>
    obtain ⟨hfeature, htrue, hfalse⟩ := h
    simp [text, hfeature, hquestion, hcolon, ihTrue htrue, ihFalse hfalse]

end HasExpr

end AmdBundle
