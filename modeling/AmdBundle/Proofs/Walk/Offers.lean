import AmdBundle.Dojo.Plugin
import AmdBundle.Proofs.Walk.Reading

/-!
# AmdBundle.Proofs.Walk.Offers — which calls a file offers to the loader's plugins

Under the host's table with the loader's plugins a walk comes to the calls that `visitedNodes`
lists, and every id that one of them needs at once is recorded (`walk_offers`).  These are all calls
of the program exactly if every dependency list of a claimed call is an array literal or has no
calls in it.  A list that is computed hides the calls in it:
`require(require("x"), function () {})` does not ask for `x` (`walk_hiddenNeed`).
-/

namespace AmdBundle
namespace DojoPlugin

open AmdPlugin

/-- What the plugins of the loader add to the host's. -/
def parts (plugin : DojoPlugin) : List AmdPlugin :=
  [.handler, .interceptor plugin.options.loaderRequest, .binder plugin.options.requireIdent]

theorem applyToHooks_standard (plugin : DojoPlugin) :
    plugin.applyToHooks .standard = table plugin.parts .loader := rfl

theorem handler_mem_parts (plugin : DojoPlugin) : .handler ∈ plugin.parts :=
  List.mem_cons_self

/-- **Offers.**  A walk under the loader's plugins comes to a call with the wire across it exactly if
`visitedNodes` lists one.  What is listed are calls of the program in their order, and all of them
exactly if no claimed call has a call in a dependency list that is no array literal.  The walk
succeeds, and the modules it records as needed at once, the loader's script apart, are those of the
listed calls of `require` that have a string literal as their one argument. -/
theorem walk_offers (plugin : DojoPlugin) (state : FileState) (program : List Node) :
    (∀ wire : Call → Bool, (plugin.applyToHooks .standard).ComesTo wire program state ↔
      (visitedNodes program).any wire = true) ∧
    (visitedNodes program).Sublist (callsOfNodes program) ∧
    (visitedNodes program = callsOfNodes program ↔
      ∀ call ∈ callsOfNodes program, call.ListsOpenly) ∧
    ∃ after more rest,
      FileState.walk (plugin.applyToHooks .standard) program state = (.ok (), after) ∧
      after.dependencies = state.dependencies ++ more ∧
      IsWithout (if !state.loaderInjected && after.loaderInjected
        then some plugin.options.loaderRequest else none) more rest ∧
      rest.filterMap Dependency.required? = (visitedNodes program).filterMap Call.need? := by
  rw [applyToHooks_standard]
  refine ⟨fun wire => comesTo_iff state program plugin.handler_mem_parts,
    visitedNodes_sublist program, visitedNodes_eq_iff program, ?_⟩
  obtain ⟨after, hwalk, -, -, more, rest, hmore, hrest, hrefers⟩ :
      ∃ after, FileState.walk (table plugin.parts .loader) program state = (.ok (), after) ∧ _ :=
    exists_gains_walk state program plugin.handler_mem_parts
  exact ⟨after, more, rest, hwalk, hmore, hrest, hrefers.needed⟩

/-- A file that computes its dependency list by a call that needs an id:
`require(require("x"), function () {})`. -/
def hiddenNeed : List Node :=
  [.expr <| .call 1 {} "require" [.call 0 {} "require" [.str {} "x"], .function {} [] []]]

theorem visitedNodes_hiddenNeed : visitedNodes hiddenNeed =
    [⟨1, {}, "require", [.call 0 {} "require" [.str {} "x"], .function {} [] []]⟩] := by
  rw [hiddenNeed, visitedNodes, visitedNodes, List.append_nil, visitedExpr]
  -- the list is no array literal, and the callback is empty
  show _ :: (visitedExpr (.function {} [] []) ++ []) = _
  rw [visitedExpr, visitedNodes]
  rfl

def plainPlugin : DojoPlugin where
  options := { loader := "/dojo/dojo.js", noModule := "/rt/NoModule.js" }
  loader := { toAbsMid := fun id _ => id }

/-- The call inside is one of the file and needs `x`, but it is not come to, and `x` is not asked
for. -/
theorem walk_hiddenNeed :
    ∃ call ∈ callsOfNodes hiddenNeed, call.need? = some "x" ∧
      ¬ (plainPlugin.applyToHooks .standard).ComesTo (fun other => other.id == call.id)
        hiddenNeed {} ∧
      .require "x" ∉
        (FileState.walk (plainPlugin.applyToHooks .standard) hiddenNeed {}).2.dependencies := by
  rw [applyToHooks_standard]
  refine ⟨⟨0, {}, "require", [.str {} "x"]⟩, ?_, rfl, ?_, ?_⟩
  · simp [hiddenNeed, callsOfNodes, callsOfExprs, Expr.calls]
  · rw [comesTo_iff _ _ plainPlugin.handler_mem_parts, visitedNodes_hiddenNeed]
    decide
  · obtain ⟨after, hwalk, -, -, more, rest, hmore, hrest, hrefers⟩ :
        ∃ after, FileState.walk (table plainPlugin.parts .loader) hiddenNeed {} =
          (.ok (), after) ∧ _ :=
      exists_gains_walk {} hiddenNeed plainPlugin.handler_mem_parts
    have hneeded := hrefers.needed
    rw [visitedNodes_hiddenNeed] at hneeded
    rw [hwalk, hmore]
    intro hmem
    rcases hrest.mem hmem with ⟨loader, hloader, heq⟩ | hmem
    · obtain ⟨-, hloader⟩ := Option.ite_none_right_eq_some.mp hloader
      have hscript : "/dojo/dojo.js" = loader := Option.some.inj hloader
      rw [← hscript] at heq
      exact absurd heq (by decide)
    · have hrequired : "x" ∈ rest.filterMap Dependency.required? :=
        List.mem_filterMap.mpr ⟨_, hmem, rfl⟩
      rw [hneeded] at hrequired
      exact absurd hrequired (by decide)

end DojoPlugin
end AmdBundle
