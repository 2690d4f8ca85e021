import AmdBundle.Proofs.HasExpr.RoundTrip

/-!
# AmdBundle.Proofs.HasExpr.Folding — conditionals decided in part

A conditional is decided twice: before it is shipped, where the values of some features are known,
and when it is run, where all are.  Deciding what is known, writing the rest and reading it again
does not change what is chosen in the end (`choose_folded`), and nothing that is known is asked
again.
-/

namespace AmdBundle
namespace HasExpr

variable {e : HasExpr} {name rest : List Char} {known : String → Option Bool}
  {holds : String → Bool} {normalize : String → String}

theorem Plain.resolve
    (hquestion : ∀ id : String, '?' ∉ id.toList → '?' ∉ (normalize id).toList)
    (hcolon : ∀ id : String, ':' ∉ id.toList → ':' ∉ (normalize id).toList) (h : e.Plain) :
    (e.resolve known normalize).Plain :=
  ⟨h.question.resolve hquestion, h.colon.resolve hcolon⟩

/-! ### What is chosen -/

/-- The id that an expression chooses where the values of all features are given. -/
def choose (holds : String → Bool) : HasExpr → String
  | mid id => id
  | cond feature whenTrue whenFalse =>
    if holds feature then whenTrue.choose holds else whenFalse.choose holds

/-- Deciding what is known changes the chosen id into its normal form, and nothing else. -/
theorem choose_resolve
    (hholds : ∀ feature value, known feature = some value → holds feature = value) :
    (e.resolve known normalize).choose holds =
      if (e.choose holds).isEmpty then "" else normalize (e.choose holds) := by
  induction e with
  | mid id =>
    rw [resolve, choose]
    split
    · rename_i hempty
      exact String.isEmpty_iff.mp hempty
    · rfl
  | cond feature whenTrue whenFalse ihTrue ihFalse =>
    rw [resolve, choose]
    cases hknown : known feature with
    | none =>
      rw [choose, ihTrue, ihFalse]
      split <;> rfl
    | some value =>
      rw [hholds feature value hknown]
      cases value with
      | true => exact ihTrue
      | false => exact ihFalse

/-! ### What is asked -/

def features : HasExpr → List String
  | mid _ => []
  | cond feature whenTrue whenFalse => feature :: (whenTrue.features ++ whenFalse.features)

theorem known_eq_none_of_mem_features {feature : String}
    (h : feature ∈ (e.resolve known normalize).features) : known feature = none := by
  induction e with
  | mid id =>
    rw [resolve] at h
    split at h <;> simp [features] at h
  | cond name whenTrue whenFalse ihTrue ihFalse =>
    rw [resolve] at h
    split at h
    · exact ihTrue h
    · exact ihFalse h
    · rename_i hnone
      rw [features, List.mem_cons, List.mem_append] at h
      rcases h with rfl | h | h
      · exact hnone
      · exact ihTrue h
      · exact ihFalse h

/-- The names before the question marks of a text, each from the last separator before it on;
`name` is what is in front of the text. -/
def asked (name : List Char) : List Char → List String
  | [] => []
  | c :: cs =>
    if c = '?' then String.ofList name :: asked [] cs
    else if c = ':' then asked [] cs
    else asked (name ++ [c]) cs

theorem asked_name_append (front : List Char) (hquestion : '?' ∉ name) (hcolon : ':' ∉ name) :
    asked front (name ++ rest) = asked (front ++ name) rest := by
  induction name generalizing front with
  | nil => rw [List.nil_append, List.append_nil]
  | cons c name ih =>
    simp only [List.mem_cons, not_or] at hquestion hcolon
    rw [List.cons_append, asked, if_neg (Ne.symm hquestion.1), if_neg (Ne.symm hcolon.1),
      ih _ hquestion.2 hcolon.2, List.append_assoc, List.singleton_append]

theorem asked_text_append (h : e.Plain) (hrest : EndsBefore rest) :
    asked [] (e.text.toList ++ rest) = e.features ++ asked [] rest := by
  induction e generalizing rest with
  | mid id =>
    rw [text, asked_name_append [] h.question h.colon, features, List.nil_append, List.nil_append]
    cases rest with
    | nil => rfl
    | cons c cs =>
      obtain rfl := hrest c cs rfl
      rfl
  | cond feature whenTrue whenFalse ihTrue ihFalse =>
    obtain ⟨hquestion, hcolon, htrue, hfalse⟩ := h.of_cond
    rw [toList_text_cond_append, asked_name_append [] hquestion hcolon, asked, if_pos rfl,
      ihTrue htrue (endsBefore_colon _), asked, if_neg (by decide),
      if_pos rfl, ihFalse hfalse hrest]
    simp [features]

theorem asked_text (h : e.Plain) : asked [] e.text.toList = e.features := by
  have hasked := asked_text_append h endsBefore_nil
  rwa [List.append_nil, asked, List.append_nil] at hasked

/-- **Folding.**  Let a text be read, decided on the features that are known, written and read
again.  Where all features are given, and the known ones as they are known, the expression chooses
the normal form of what the text chose at first; an empty id stays empty.  No question mark of the
written text asks for a feature that is known.  (`normalize` must not bring separators into ids.) -/
theorem choose_folded (text : String)
    (hholds : ∀ feature value, known feature = some value → holds feature = value)
    (hquestion : ∀ id : String, '?' ∉ id.toList → '?' ∉ (normalize id).toList)
    (hcolon : ∀ id : String, ':' ∉ id.toList → ':' ∉ (normalize id).toList) :
    (ofText ((ofText text).resolve known normalize).text).choose holds =
        (if ((ofText text).choose holds).isEmpty then ""
          else normalize ((ofText text).choose holds)) ∧
      ∀ feature ∈ asked [] ((ofText text).resolve known normalize).text.toList,
        known feature = none := by
  have hplain : ((ofText text).resolve known normalize).Plain :=
    (plain_ofText text).resolve hquestion hcolon
  refine ⟨?_, fun feature hfeature => ?_⟩
  · rw [ofText_text hplain, choose_resolve hholds]
  · rw [asked_text hplain] at hfeature
    exact known_eq_none_of_mem_features hfeature

/-! ### A conditional in each branch -/

/-- Two features that are known before the file is shipped. -/
def shipped (feature : String) : Option Bool :=
  if feature = "on" then some true else if feature = "off" then some false else none

/-- One of the two holds when the file is run, and no other feature does. -/
def whenRun (feature : String) : Bool := feature == "on"

def inPackage (id : String) : String := "pkg/" ++ id

theorem choose_folded_branches :
    (∀ feature value, shipped feature = some value → whenRun feature = value) ∧
      (∀ id : String, '?' ∉ id.toList → '?' ∉ (inPackage id).toList) ∧
      (∀ id : String, ':' ∉ id.toList → ':' ∉ (inPackage id).toList) ∧
      ((ofText "later?off?x:a:on?b").resolve shipped inPackage).text = "later?pkg/a:pkg/b" ∧
      (ofText "later?pkg/a:pkg/b").choose whenRun = "pkg/b" ∧
      ∀ feature ∈ asked [] "later?pkg/a:pkg/b".toList, shipped feature = none := by
  have hholds : ∀ feature value, shipped feature = some value → whenRun feature = value := by
    intro feature value h
    unfold shipped at h
    split at h
    · rename_i hon
      rw [hon, ← Option.some.inj h]
      rfl
    · split at h
      · rename_i hoff
        rw [hoff, ← Option.some.inj h]
        decide
      · simp at h
  have hquestion : ∀ id : String, '?' ∉ id.toList → '?' ∉ (inPackage id).toList := by
    simp [inPackage]
  have hcolon : ∀ id : String, ':' ∉ id.toList → ':' ∉ (inPackage id).toList := by
    simp [inPackage]
  have htext : ((ofText "later?off?x:a:on?b").resolve shipped inPackage).text =
      "later?pkg/a:pkg/b" := by decide
  have hfolded := choose_folded "later?off?x:a:on?b" hholds hquestion hcolon
  rw [htext] at hfolded
  exact ⟨hholds, hquestion, hcolon, htext, hfolded.1.trans (by decide), hfolded.2⟩

end HasExpr
end AmdBundle
