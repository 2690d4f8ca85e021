import AmdBundle.FilePath
import AmdBundle.Graph.Basic
import AmdBundle.Resolver.Basic

/-!
# AmdBundle.Factory — modules created for requests

Creating a module goes through the plugins of a factory three times: each may change the request,
wraps what resolves it, and may make the record.  A module that the graph has under the absolute id
of the request, or under the identifier that the request resolves to, is not made again.
-/

namespace AmdBundle

/-- A plugin of a factory whose resolver has a state of type `σ`. -/
structure FactoryPlugin (σ : Type) where
  name : String
  /-- May change the request, or refuse. -/
  beforeResolve : ResolveData → Except PluginError ResolveData := fun data => .ok data
  /-- What is to resolve requests instead of the given one. -/
  wrapResolver : Resolver σ → Resolver σ := fun inner => inner
  /-- May make the record of a resolved module, or refuse. -/
  createModule : ResolvedModule → Except PluginError (Option ModuleRecord) := fun _ => .ok none

/-- The plugins of a factory in order, and what resolves requests. -/
structure Factory (σ : Type) where
  plugins : List (FactoryPlugin σ)
  resolver : Resolver σ

/-- What creating modules works on: the graph, and the state of the resolver. -/
structure Workspace (σ : Type) where
  graph : ModuleGraph := {}
  resolver : σ

abbrev CreateM (σ : Type) : Type → Type := ExceptT Error (StateM (Workspace σ))

namespace Factory

variable {σ : Type}

def new (resolver : Resolver σ) : Factory σ := ⟨[], resolver⟩

/-- Adds a plugin, which wraps what resolves requests so far. -/
def addPlugin (factory : Factory σ) (plugin : FactoryPlugin σ) : Factory σ :=
  ⟨factory.plugins ++ [plugin], plugin.wrapResolver factory.resolver⟩

/-- The request as the plugins leave it, one after the other. -/
def beforeResolve : List (FactoryPlugin σ) → ResolveData → Except PluginError ResolveData
  | [], data => .ok data
  | plugin :: rest, data =>
    match plugin.beforeResolve data with
    | .ok data => beforeResolve rest data
    | .error error => .error error

/-- The record of a resolved module where no plugin makes one. -/
def defaultRecord (resolved : ResolvedModule) : ModuleRecord :=
  { request := resolved.request
    userRequest := resolved.userRequest
    rawRequest := resolved.rawRequest
    resource := resolved.resource
    loaders := resolved.loaders }

/-- The record of a resolved module, from the first plugin that makes one. -/
def makeRecord : List (FactoryPlugin σ) → ResolvedModule → Except PluginError ModuleRecord
  | [], resolved => .ok (defaultRecord resolved)
  | plugin :: rest, resolved =>
    match plugin.createModule resolved with
    | .ok (some record) => .ok record
    | .ok none => makeRecord rest resolved
    | .error error => .error error

/-- The graph where the module at a place has been reached under the absolute id, if there is one.
-/
def reached (graph : ModuleGraph) (idx : Nat) : Option String → ModuleGraph
  | none => graph
  | some absMid => (graph.addAlias idx absMid).2

/-- The place of the module for what a request was resolved to. -/
def place (factory : Factory σ) (resolved : ResolvedModule) (graph : ModuleGraph) :
    Except Error (Nat × ModuleGraph) :=
  match graph.byIdentifier? resolved.request with
  | some idx => .ok (idx, reached graph idx resolved.absMid)
  | none =>
    match makeRecord factory.plugins resolved with
    | .error error => .error (.plugin error)
    | .ok record => .ok (graph.add record)

/-- Creates, or finds, the module for a request; gives its place. -/
def create (factory : Factory σ) (data : ResolveData) : CreateM σ Nat :=
  ExceptT.mk fun work =>
    match beforeResolve factory.plugins data with
    | .error error => (.error (.plugin error), work)
    | .ok data =>
      match data.absMid.bind work.graph.byAbsMid? with
      | some idx => (.ok idx, work)
      | none =>
        match factory.resolver data work.resolver with
        | (.error error, resolver) => (.error (.resolve error), { work with resolver })
        | (.ok resolved, resolver) =>
          match factory.place resolved work.graph with
          | .error error => (.error error, { work with resolver })
          | .ok (idx, graph) => (.ok idx, ⟨graph, resolver⟩)

/-- Creates modules from a workspace: how it ended, and the workspace it left. -/
def createFrom (factory : Factory σ) (data : ResolveData) (work : Workspace σ) :
    Except Error Nat × Workspace σ :=
  (factory.create data).run.run work

end Factory

namespace ModuleRecord

/-- The directory that the requests of a module are taken against. -/
def context (record : ModuleRecord) : String :=
  (FilePath.parent? record.resource).getD "."

end ModuleRecord
end AmdBundle
