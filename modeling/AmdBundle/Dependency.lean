import AmdBundle.ModuleId
import AmdBundle.Program.Basic

/-!
# AmdBundle.Dependency — what a file depends on

A walk over a file records dependencies.  An entry of an AMD list is a pseudo-module, a local module,
which a named `define` call of the file declares, or a module elsewhere.
-/

namespace AmdBundle

/-- A module as those it refers to see it. -/
structure ModuleIdentity where
  /-- The absolute id, if it is known. -/
  absMid : Option String := none
  /-- The identifier of the module's record. -/
  request : String := ""
  deriving DecidableEq, Repr, Inhabited

namespace ModuleIdentity

/-- What relative ids are taken against: the absolute id, or the identifier where there is none. -/
def context (identity : ModuleIdentity) : String :=
  identity.absMid.getD identity.request

end ModuleIdentity

structure LocalModule where
  name : String
  idx : Nat
  deriving DecidableEq, Repr

/-- The local modules of a file in the order of their declaration. -/
structure LocalModules where
  modules : List LocalModule := []
  deriving DecidableEq, Repr, Inhabited

namespace LocalModules

/-- Declares a module; a name may be declared again. -/
def add (locals : LocalModules) (name : String) : LocalModule × LocalModules :=
  let entry : LocalModule := ⟨name, locals.modules.length⟩
  (entry, ⟨locals.modules ++ [entry]⟩)

@[simp] theorem modules_add (locals : LocalModules) (name : String) :
    (locals.add name).2.modules = locals.modules ++ [⟨name, locals.modules.length⟩] := rfl

/-- The name meant by an id inside the module `named`: a relative one is taken against that module's
name. -/
def fullName (id : String) (named : Option String) : String :=
  match named with
  | some name => if ModuleId.isRelative id then ModuleId.siblingPath name id else id
  | none => id

/-- The first declaration that an id inside the module `named` means. -/
def get? (locals : LocalModules) (id : String) (named : Option String) : Option LocalModule :=
  let name := fullName id named
  locals.modules.find? fun entry => entry.name == name

end LocalModules

/-- A module that the loader makes up and that no file holds. -/
inductive PseudoModule where
  | require
  | module
  | exports
  deriving DecidableEq, Repr

namespace PseudoModule

def id : PseudoModule → String
  | require => "require"
  | module => "module"
  | exports => "exports"

def ofId? : String → Option PseudoModule
  | "require" => some require
  | "module" => some module
  | "exports" => some exports
  | _ => none

end PseudoModule

/-- A module elsewhere, named by an id. -/
structure ExternalRef where
  /-- The id as written in the source. -/
  request : String
  /-- The module that has it in its source. -/
  issuer : ModuleIdentity
  deriving DecidableEq, Repr

/-- One entry of an AMD dependency list. -/
inductive AmdItem where
  /-- In generated code `expression` stands for it. -/
  | pseudo (pseudo : PseudoModule) (expression : String)
  | localModule (entry : LocalModule)
  | external (ref : ExternalRef)
  deriving DecidableEq, Repr

structure ItemDependency where
  item : AmdItem
  /-- What generated code replaces; `none` for an entry of a list, which is replaced as a whole. -/
  range : Option Span
  loc : Span
  /-- Whether the module may be missing. -/
  optional : Bool
  deriving DecidableEq, Repr

/-- All entries of a constant list in their order. -/
structure ArrayDependency where
  items : List AmdItem
  range : Span
  loc : Span
  optional : Bool
  deriving DecidableEq, Repr

/-- What carries out a `define` call in generated code. -/
inductive DefineKind where
  /-- The host. -/
  | standard
  /-- The loader's own runtime. -/
  | loader
  deriving DecidableEq, Repr

/-- The parts of a `define` call. -/
structure DefineParts where
  range : Span := default
  arrayRange : Option Span := none
  functionRange : Option Span := none
  objectRange : Option Span := none
  localModule : Option LocalModule := none
  /-- By position in the list, the names that the list gives to parameters of the module's function.
  -/
  paramBindings : List (Option String) := []
  deriving DecidableEq, Repr

structure DefineDependency where
  kind : DefineKind
  parts : DefineParts
  loc : Span
  deriving DecidableEq, Repr

/-- What a walk over a file records. -/
inductive Dependency where
  /-- A module that must be there at once. -/
  | require (request : String)
  | item (dependency : ItemDependency)
  | array (dependency : ArrayDependency)
  | define (dependency : DefineDependency)
  deriving DecidableEq, Repr

namespace Dependency

/-- The request that must be resolved for a dependency, if there is one. -/
def request? : Dependency → Option String
  | require request => some request
  | item ⟨.external ref, _, _, _⟩ => some ref.request
  | _ => none

end Dependency
end AmdBundle
