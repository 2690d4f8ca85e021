import AmdBundle.Amd.Items
import AmdBundle.Proofs.Walk.Run

/-!
# AmdBundle.Proofs.Amd.Items — what is claimed of lists and ids

Whether a list or an id is claimed depends on the expression alone: a constant array and a string
literal are, whatever renders them, and everything else is passed on without a trace.
-/

namespace AmdBundle
namespace Amd

variable {param : Expr} {named : Option String} {render : ModuleIdentity → Render}

theorem exists_of_isConstArray (h : param.evaluate.isConstArray = true) :
    ∃ ids, param.evaluate = .constArray ids := by
  cases hparam : param.evaluate <;> simp [hparam, Evaluated.isConstArray] at h ⊢

theorem exists_of_isString (h : param.evaluate.isString = true) :
    ∃ id, param.evaluate = .string id := by
  cases hparam : param.evaluate <;> simp [hparam, Evaluated.isString] at h ⊢

theorem claimArray_of_not (h : param.evaluate.isConstArray = false) (slots : Slots) :
    claimArray render param slots named = pure (.pass, slots) := by
  unfold claimArray
  cases hparam : param.evaluate with
  | constArray ids =>
    rw [hparam] at h
    exact absurd h (by simp [Evaluated.isConstArray])
  | string value => rfl
  | dynamic => rfl

theorem runFrom_claimArray {ids : List String} (h : param.evaluate = .constArray ids)
    (slots : Slots) (state : FileState) :
    (claimArray render param slots named).runFrom state =
      (.ok (.claim, (state.addArray ids param.span slots named (render state.identity)).2),
        (state.addArray ids param.span slots named (render state.identity)).1) := by
  rw [claimArray, h]
  rfl

theorem claimItem_of_not (h : param.evaluate.isString = false) :
    claimItem render param named = pure .pass := by
  unfold claimItem
  cases hparam : param.evaluate with
  | string value =>
    rw [hparam] at h
    exact absurd h (by simp [Evaluated.isString])
  | constArray ids => rfl
  | dynamic => rfl

theorem runFrom_claimItem {id : String} (h : param.evaluate = .string id) (state : FileState) :
    (claimItem render param named).runFrom state =
      (.ok .claim, state.addItem id param.span named (render state.identity)) := by
  rw [claimItem, h]
  rfl

/-- A list that is claimed is offered to nobody else, and one that is not has no trace. -/
theorem claimArray_bind (render : ModuleIdentity → Render)
    {other : Slots → WalkM (Verdict × Slots)} {slots : Slots}
    (h : param.evaluate.isConstArray = false → other slots = pure (.pass, slots)) :
    (claimArray render param slots named >>= fun answer =>
      match answer with
      | (.claim, slots) => pure (.claim, slots)
      | (.pass, slots) => other slots) = claimArray render param slots named := by
  cases hconst : param.evaluate.isConstArray with
  | false =>
    rw [claimArray_of_not hconst, pure_bind]
    exact h hconst
  | true =>
    cases hparam : param.evaluate with
    | constArray ids =>
      refine WalkM.ext fun state => ?_
      rw [WalkM.runFrom_bind_of_ok (runFrom_claimArray hparam slots state),
        runFrom_claimArray hparam]
      rfl
    | string value => simp [hparam, Evaluated.isConstArray] at hconst
    | dynamic => simp [hparam, Evaluated.isConstArray] at hconst

theorem claimItem_bind (render : ModuleIdentity → Render) {other : WalkM Verdict}
    (h : param.evaluate.isString = false → other = pure .pass) :
    (claimItem render param named >>= fun verdict =>
      match verdict with
      | .claim => pure .claim
      | .pass => other) = claimItem render param named := by
  cases hstring : param.evaluate.isString with
  | false =>
    rw [claimItem_of_not hstring, pure_bind]
    exact h hstring
  | true =>
    cases hparam : param.evaluate with
    | string id =>
      refine WalkM.ext fun state => ?_
      rw [WalkM.runFrom_bind_of_ok (runFrom_claimItem hparam state), runFrom_claimItem hparam]
      rfl
    | constArray ids => simp [hparam, Evaluated.isString] at hstring
    | dynamic => simp [hparam, Evaluated.isString] at hstring

end Amd
end AmdBundle
