import AmdBundle.AbsMid.Basic
import AmdBundle.AbsMid.Marker
import AmdBundle.Factory

/-!
# AmdBundle.Dojo.Adapter — modules created under their absolute ids

The factory plugin that turns the requests of AMD modules, and of the entry, into absolute ids
before they are resolved, and that hands the ids on to the records.  A request that carries a marker
gets the id in it; the requests for the pseudo-modules `require` and `module` go to a stand-in
script; a request that stays relative is left alone.
-/

namespace AmdBundle
namespace Dojo

def adapterName : String := "dojo-amd:factory"

/-- What a request is absolute against: the module that made it, or nothing for the entry.  `none`
if the request is neither from an AMD list nor the entry. -/
def issuerContext? (data : ResolveData) : Option (Option String) :=
  data.dependencies.findSome? fun
    | .entry => some none
    | .amdItem issuer => some (some issuer.context)
    | .commonJs => none

/-- The request with its absolute id in its place, unless that is still relative. -/
def readdress (data : ResolveData) (absMid : String) : ResolveData :=
  let data :=
    if absMid.toList.head? == some '.' then data
    else { data with rawRequest := some data.request, request := absMid, absMid := some absMid }
  { data with absMidAliases := [] }

/-- The request as the plugin leaves it. -/
def beforeResolve (loader : Loader) (noModule : String) (data : ResolveData) :
    Except PluginError ResolveData :=
  match AbsMid.Marker.detach data.request with
  | .error error => .error ⟨adapterName, "before_resolve", error.message⟩
  | .ok (some (request, absMid)) => .ok { data with request, absMid := some absMid }
  | .ok none =>
    if data.request = PseudoModule.require.id ∨ data.request = PseudoModule.module.id then
      .ok { data with absMid := some data.request, request := noModule }
    else
      match issuerContext? data with
      | none => .ok data
      | some issuer => .ok (readdress data (AbsMid.resolve loader data.request issuer))

/-- What the resolver found, with the ids of the request. -/
def carryIds (data : ResolveData) (resolved : ResolvedModule) : ResolvedModule :=
  { resolved with
    absMid := data.absMid
    absMidAliases := data.absMidAliases
    rawRequest := data.rawRequest.getD resolved.rawRequest }

/-- The resolver that hands the ids of the request on. -/
def wrapResolver {σ : Type} (inner : Resolver σ) : Resolver σ := fun data state =>
  match inner data state with
  | (.ok resolved, state) => (.ok (carryIds data resolved), state)
  | (.error error, state) => (.error error, state)

/-- The record of a module that has an absolute id. -/
def createModule (resolved : ResolvedModule) : Option ModuleRecord :=
  match resolved.absMid with
  | none => none
  | some absMid =>
    some {
      request := resolved.request
      userRequest := resolved.userRequest
      rawRequest := resolved.rawRequest
      resource := resolved.resource
      loaders := resolved.loaders
      absMid := some absMid
      absMidAliases := resolved.absMidAliases }

def adapter {σ : Type} (loader : Loader) (noModule : String) : FactoryPlugin σ where
  name := adapterName
  beforeResolve := beforeResolve loader noModule
  wrapResolver := wrapResolver
  createModule resolved := .ok (createModule resolved)

end Dojo
end AmdBundle
