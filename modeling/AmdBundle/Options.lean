import AmdBundle.FilePath
import AmdBundle.Json.Basic

/-!
# AmdBundle.Options — settings

What the loader plugin is told about its surroundings, and what a build is told.  Both are read from
a value, an object by keys or an array by position; keys that are not known are ignored.
-/

namespace AmdBundle

/-- The name of the host's require function in generated code, unless another is given. -/
def defaultRequireIdent : String := "__webpack_require__"

structure PluginOptions where
  /-- The path of the loader's script, which every AMD file pulls in. -/
  loader : String := ""
  /-- The name of the host's require function in generated code. -/
  requireIdent : String := defaultRequireIdent
  /-- The path of the empty script that stands in for the modules `require` and `module`. -/
  noModule : String
  deriving DecidableEq, Repr

namespace PluginOptions

/-- The stand-in script of an installation. -/
def standIn (home : String) : String :=
  FilePath.join (FilePath.join home "runtime") "NoModule.js"

/-- The options for a loader script; `home` is the directory of the installation. -/
def new (home loader : String) : PluginOptions :=
  { loader, noModule := standIn home }

def loaderRequest (options : PluginOptions) : String := FilePath.slashed options.loader

def noModuleRequest (options : PluginOptions) : String := FilePath.slashed options.noModule

def textOr? (default : String) : Option Json → Option String
  | none => some default
  | some value => value.string?

def ofFields? (home : String) (loader requireIdent noModule : Option Json) :
    Option PluginOptions := do
  return {
    loader := ← textOr? "" loader
    requireIdent := ← textOr? defaultRequireIdent requireIdent
    noModule := ← textOr? (standIn home) noModule }

def ofJson? (home : String) (value : Json) : Option PluginOptions :=
  match value with
  | .object _ =>
    ofFields? home (value.get? "loader") (value.get? "requireIdent") (value.get? "noModule")
  | .array items => if items.length ≤ 3 then ofFields? home items[0]? items[1]? items[2]? else none
  | _ => none

def toJson (options : PluginOptions) : Json :=
  .object [("loader", .string options.loader), ("requireIdent", .string options.requireIdent),
    ("noModule", .string options.noModule)]

end PluginOptions

structure RunConfig where
  /-- The directory that the entry request is taken against. -/
  cwd : String
  jsonLogs : Bool := false
  /-- How much is logged: 0 for the least, 2 and more for the most. -/
  verbosity : UInt8 := 0
  deriving DecidableEq, Repr

namespace RunConfig

def byte? (value : Json) : Option UInt8 := do
  let n ← value.nat?
  if n < 256 then some (UInt8.ofNat n) else none

def ofFields? (cwd jsonLogs verbosity : Option Json) : Option RunConfig := do
  return {
    cwd := ← (← cwd).string?
    jsonLogs := ← (← jsonLogs).bool?
    verbosity := ← byte? (← verbosity) }

def ofJson? (value : Json) : Option RunConfig :=
  match value with
  | .object _ => ofFields? (value.get? "cwd") (value.get? "json_logs") (value.get? "verbosity")
  | .array items => if items.length ≤ 3 then ofFields? items[0]? items[1]? items[2]? else none
  | _ => none

end RunConfig
end AmdBundle
