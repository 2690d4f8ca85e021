import AmdBundle.Walk.Hooks

/-!
# AmdBundle.Dojo.Interceptor — files that define modules pull in the loader

The plugin that sees every `define` call first.  It marks the file as an AMD file, records the
loader's script as its dependency, once in a file, and offers the call again to the whole table.  A
call that is being handled already is passed on, so that the second round goes to the other plugins.
-/

namespace AmdBundle
namespace Dojo

/-- The file with the loader's script among its dependencies. -/
def injectLoader (loaderRequest : String) (state : FileState) : FileState :=
  if state.loaderInjected then state
  else { state.record (.require loaderRequest) with loaderInjected := true }

/-- Handles a call of `define` whose id is not being handled: `state` has the mark already. -/
def intercept (loaderRequest : String) (call : Call) (host : CallHost call) (state : FileState) :
    Except PluginError Verdict × FileState :=
  let marked := { injectLoader loaderRequest state with isAmd := true }
  let (result, after) := host.offerAgain.runFrom marked
  (result, after.leave call.id)

def interceptor (loaderRequest : String) : Plugin where
  name := "dojo-amd:define"
  level := .pre
  callDefine call host :=
    WalkM.ofFun fun state =>
      match state.enter? call.id with
      | none => (.ok .pass, state)
      | some state => intercept loaderRequest call host state

end Dojo
end AmdBundle
