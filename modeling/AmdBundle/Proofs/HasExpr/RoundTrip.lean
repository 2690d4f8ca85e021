import AmdBundle.Proofs.HasExpr.Names

/-!
# AmdBundle.Proofs.HasExpr.RoundTrip — conditionals written and read

There are no brackets in a written conditional, and the terms in it may be empty.  It is read back
as what was written all the same: an expression ends where the text does or where a colon belongs to
no question mark of it (`readParts_text_append`).  The only expressions that are not are those with
a question mark or a colon in a name, and none of these is read from any text
(`ofText_text_eq_self_iff`).
-/

namespace AmdBundle
namespace HasExpr

variable {e : HasExpr} {name rest : List Char}

/-- No name has a question mark or a colon in it. -/
structure Plain (e : HasExpr) : Prop where
  question : e.Avoids '?'
  colon : e.Avoids ':'

theorem plain_ofText (text : String) : (ofText text).Plain :=
  ⟨(avoids_readParts (.inr (.inl rfl))).1, (avoids_readParts (.inr (.inr rfl))).1⟩

theorem Plain.of_cond {feature : String} {whenTrue whenFalse : HasExpr}
    (h : (cond feature whenTrue whenFalse).Plain) :
    '?' ∉ feature.toList ∧ ':' ∉ feature.toList ∧ whenTrue.Plain ∧ whenFalse.Plain :=
  ⟨h.question.1, h.colon.1, ⟨h.question.2.1, h.colon.2.1⟩, ⟨h.question.2.2, h.colon.2.2⟩⟩

theorem toList_text_cond_append (feature : String) (whenTrue whenFalse : HasExpr)
    (rest : List Char) :
    (cond feature whenTrue whenFalse).text.toList ++ rest =
      feature.toList ++
        '?' :: (whenTrue.text.toList ++ ':' :: (whenFalse.text.toList ++ rest)) := by
  simp [text]

/-- Whether an expression that is followed by the text ends there. -/
def EndsBefore (rest : List Char) : Prop := ∀ c cs, rest = c :: cs → c = ':'

theorem endsBefore_nil : EndsBefore [] := fun _ _ h => absurd h (by simp)

theorem endsBefore_colon (cs : List Char) : EndsBefore (':' :: cs) := fun _ _ h =>
  (List.cons.inj h).1.symm

theorem readParts_name_append (hquestion : '?' ∉ name) (hcolon : ':' ∉ name) :
    readParts (name ++ rest) = (name.foldr cons (readParts rest).1, (readParts rest).2) := by
  induction name with
  | nil => rfl
  | cons c name ih =>
    simp only [List.mem_cons, not_or] at hquestion hcolon
    rw [List.cons_append, readParts, ih hquestion.2 hcolon.2]
    simp only
    rw [if_neg (Ne.symm hcolon.1), if_neg (Ne.symm hquestion.1), List.foldr_cons]

theorem foldr_cons_mid (name : List Char) :
    name.foldr cons (mid "") = mid (String.ofList name) := by
  induction name with
  | nil => rfl
  | cons c name ih => rw [List.foldr_cons, ih, cons, String.toList_ofList]

theorem foldr_cons_cond (name : List Char) (whenTrue whenFalse : HasExpr) :
    name.foldr cons (cond "" whenTrue whenFalse) =
      cond (String.ofList name) whenTrue whenFalse := by
  induction name with
  | nil => rfl
  | cons c name ih => rw [List.foldr_cons, ih, cons, String.toList_ofList]

/-- An expression is read up to its end, and what follows is read as if nothing was before it. -/
theorem readParts_text_append (h : e.Plain) (hrest : EndsBefore rest) :
    readParts (e.text.toList ++ rest) = (e, (readParts rest).2) := by
  induction e generalizing rest with
  | mid id =>
    have hfirst : (readParts rest).1 = mid "" := by
      cases rest with
      | nil => rfl
      | cons c cs =>
        obtain rfl := hrest c cs rfl
        rw [readParts]
        rfl
    rw [text, readParts_name_append h.question h.colon, hfirst, foldr_cons_mid,
      String.ofList_toList]
  | cond feature whenTrue whenFalse ihTrue ihFalse =>
    obtain ⟨hquestion, hcolon, htrue, hfalse⟩ := h.of_cond
    -- from the end: the branches are read one after the other, and the question mark takes both
    have hbehind : readParts (':' :: (whenFalse.text.toList ++ rest)) =
        (mid "", whenFalse :: (readParts rest).2) := by
      rw [readParts, ihFalse hfalse hrest]
      rfl
    have hbranches : readParts ('?' :: (whenTrue.text.toList ++ ':' ::
        (whenFalse.text.toList ++ rest))) = (cond "" whenTrue whenFalse, (readParts rest).2) := by
      rw [readParts, ihTrue htrue (endsBefore_colon _), hbehind]
      rfl
    rw [toList_text_cond_append, readParts_name_append hquestion hcolon, hbranches, foldr_cons_cond,
      String.ofList_toList]

theorem ofText_text (h : e.Plain) : ofText e.text = e := by
  have hread := readParts_text_append h endsBefore_nil
  rw [List.append_nil] at hread
  rw [ofText, hread]

/-- **Written and read.**  Exactly the expressions with no question mark and no colon in a name are
read back from what is written of them.  Every text is read as such an expression, so writing it and
reading it again changes nothing. -/
theorem ofText_text_eq_self_iff :
    (∀ e : HasExpr, ofText e.text = e ↔ e.Plain) ∧
      ∀ text : String, (ofText text).Plain ∧ ofText (ofText text).text = ofText text := by
  refine ⟨fun e => ⟨fun h => ?_, ofText_text⟩, fun text => ?_⟩
  · rw [← h]
    exact plain_ofText e.text
  · exact ⟨plain_ofText text, ofText_text (plain_ofText text)⟩

end HasExpr
end AmdBundle
