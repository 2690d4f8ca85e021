import AmdBundle.Dependency
import AmdBundle.Error

/-!
# AmdBundle.Resolver.Basic — requests to be resolved

A request with its surroundings, as the hooks of module creation see and change it, what it is
resolved to, and what resolves it, which may keep a state from one request to the next.  The
directory of a request and the file that it is resolved to are paths of any kind.
-/

namespace AmdBundle

/-- What a module is created for. -/
inductive FactoryDependency where
  /-- The entry of a build. -/
  | entry
  /-- An id from an AMD dependency list. -/
  | amdItem (issuer : ModuleIdentity)
  /-- A module needed at once. -/
  | commonJs
  deriving DecidableEq, Repr

structure ResolveData (π : Type := String) where
  /-- The directory that relative requests are taken against. -/
  context : π
  request : String := ""
  /-- What waits for the module. -/
  dependencies : List FactoryDependency := []
  absMid : Option String := none
  absMidAliases : List String := []
  /-- The request before another took its place, if one did. -/
  rawRequest : Option String := none
  deriving DecidableEq, Repr, Inhabited

namespace ResolveData

/-- A request that nothing has been found out about. -/
def new {π : Type} (context : π) (request : String) (dependencies : List FactoryDependency) :
    ResolveData π :=
  { context, request, dependencies }

end ResolveData

structure ResolvedModule (π : Type := String) where
  /-- The identifier: loaders, file and query. -/
  request : String := ""
  /-- The request as the resolver got it. -/
  userRequest : String := ""
  /-- The request as written in the source. -/
  rawRequest : String := ""
  /-- The path of the file. -/
  resource : π
  loaders : List String := []
  absMid : Option String := none
  absMidAliases : List String := []
  deriving DecidableEq, Repr, Inhabited

abbrev Resolver (σ : Type) (π : Type := String) : Type :=
  ResolveData π → σ → Except ResolveError (ResolvedModule π) × σ

end AmdBundle
