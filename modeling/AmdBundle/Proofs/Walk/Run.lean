import AmdBundle.Walk.State

/-!
# AmdBundle.Proofs.Walk.Run — how steps of a walk run

What the combinators that steps of a walk are written with do to a state, one equation for each.
Two steps are equal if they run in the same way from every state (`WalkM.ext`).
-/

namespace AmdBundle
namespace WalkM

variable {α β : Type}

theorem ext {x y : WalkM α} (h : ∀ state, x.runFrom state = y.runFrom state) : x = y :=
  funext h

@[simp] theorem runFrom_pure (a : α) (state : FileState) :
    (pure a : WalkM α).runFrom state = (.ok a, state) := rfl

@[simp] theorem runFrom_ofFun (f : FileState → Except PluginError α × FileState)
    (state : FileState) : (ofFun f).runFrom state = f state := rfl

@[simp] theorem runFrom_update (f : FileState → FileState) (state : FileState) :
    (update f).runFrom state = (.ok (), f state) := rfl

@[simp] theorem runFrom_record (dependency : Dependency) (state : FileState) :
    (record dependency).runFrom state = (.ok (), state.record dependency) := rfl

@[simp] theorem runFrom_get (state : FileState) :
    (get : WalkM FileState).runFrom state = (.ok state, state) := rfl

@[simp] theorem runFrom_refuse (error : PluginError) (state : FileState) :
    (refuse error : WalkM α).runFrom state = (.error error, state) := rfl

theorem runFrom_bind (x : WalkM α) (k : α → WalkM β) (state : FileState) :
    (x >>= k).runFrom state =
      match x.runFrom state with
      | (.ok a, after) => (k a).runFrom after
      | (.error error, after) => (.error error, after) := by
  show (ExceptT.bindCont k (x state).1) (x state).2 = _
  rcases hx : x state with ⟨a | a, after⟩ <;>
    · have hrun : x.runFrom state = (_, after) := hx
      rw [hrun]
      rfl

theorem runFrom_bind_of_ok {x : WalkM α} {a : α} {state after : FileState}
    (h : x.runFrom state = (.ok a, after)) (k : α → WalkM β) :
    (x >>= k).runFrom state = (k a).runFrom after := by
  rw [runFrom_bind, h]

theorem runFrom_tryCatch (x : WalkM α) (handle : PluginError → WalkM α) (state : FileState) :
    (tryCatch x handle).runFrom state =
      match x.runFrom state with
      | (.ok a, after) => (.ok a, after)
      | (.error error, after) => (handle error).runFrom after := by
  show runFrom (ExceptT.tryCatch x handle) state = _
  unfold ExceptT.tryCatch
  rcases hx : x state with ⟨error | a, after⟩
  · have hrun : x.runFrom state = (.error error, after) := hx
    rw [hrun]
    simp only [runFrom, ExceptT.run, ExceptT.mk, StateT.run, bind, StateT.bind, hx]
  · have hrun : x.runFrom state = (.ok a, after) := hx
    rw [hrun]
    simp only [runFrom, ExceptT.run, ExceptT.mk, StateT.run, bind, StateT.bind, hx]
    rfl

theorem discard_eq (x : WalkM α) : Functor.discard x = x >>= fun _ => pure () := by
  rw [Functor.discard, LawfulFunctor.map_const]
  exact map_eq_pure_bind _ x

@[simp] theorem runFrom_withTry (value : Bool) (x : WalkM α) (state : FileState) :
    (withTry value x).runFrom state =
      ((x.runFrom { state with inTry := value }).1,
        { (x.runFrom { state with inTry := value }).2 with inTry := state.inTry }) := rfl

end WalkM
end AmdBundle
