import AmdBundle.Amd.Items
import AmdBundle.Text.Quoted

/-!
# AmdBundle.Dojo.Binder — pseudo-modules bound to the module that lists them

The plugin that claims constant lists and ids before the host does.  It records what the host would,
but `require` and `module` get expressions that know the absolute id of the module which lists them.
-/

namespace AmdBundle
namespace Dojo

/-- The expression for a pseudo-module in a module with the given absolute id, if it has one. -/
def expression (requireIdent : String) (pseudo : PseudoModule) (absMid : Option String) : String :=
  match pseudo, absMid with
  | .require, some id => requireIdent ++ ".djr(" ++ Text.Quoted.quote id ++ ")"
  | .require, none => requireIdent
  | .module, some id => requireIdent ++ ".djm(module, " ++ Text.Quoted.quote id ++ ")"
  | .module, none => requireIdent ++ ".djm(module)"
  | .exports, _ => "exports"

/-- The expressions for the pseudo-modules in a module. -/
def render (requireIdent : String) (identity : ModuleIdentity) : Render :=
  fun pseudo => expression requireIdent pseudo identity.absMid

def binder (requireIdent : String) : Plugin where
  name := "dojo-amd:items"
  level := .pre
  amdArray _ _ param slots named := Amd.claimArray (render requireIdent) param slots named
  amdItem _ _ param named := Amd.claimItem (render requireIdent) param named

end Dojo
end AmdBundle
