import AmdBundle.AbsMid.Marker

/-!
# AmdBundle.Error — what can go wrong

Each error holds its cause; `message` puts it into words.
-/

namespace AmdBundle

/-- A hook refused. -/
structure PluginError where
  plugin : String
  hook : String
  reason : String
  deriving DecidableEq, Repr

namespace PluginError

def message (error : PluginError) : String :=
  "[" ++ error.plugin ++ "] " ++ error.hook ++ ": " ++ error.reason

end PluginError

/-- A request names no file. -/
structure ResolveError where
  /-- What was looked for. -/
  specifier : String
  /-- The directory it was looked for from. -/
  source : String
  reason : String
  deriving DecidableEq, Repr

namespace ResolveError

def message (error : ResolveError) : String :=
  "Cannot resolve '" ++ error.specifier ++ "' from '" ++ error.source ++ "': " ++ error.reason

end ResolveError

/-- An error of a build or of what it is set up from. -/
inductive Error where
  /-- The configuration at a path could not be read. -/
  | configRead (path : String)
  /-- The configuration at a path is not well formed. -/
  | configParse (path : String)
  | resolve (error : ResolveError)
  | plugin (error : PluginError)
  /-- The source of a module could not be had. -/
  | load (resource reason : String)
  /-- The pattern of an alias is not well formed. -/
  | badPattern (pattern : String)
  | other (text : String)
  deriving DecidableEq, Repr

namespace Error

def message : Error → String
  | configRead path => "Failed to read loader config at " ++ path
  | configParse path => "Failed to parse loader config at " ++ path
  | resolve error => error.message
  | plugin error => error.message
  | load resource reason => "Failed to load " ++ resource ++ ": " ++ reason
  | badPattern pattern => "invalid alias pattern '" ++ pattern ++ "'"
  | other text => text

end Error

/-- Outcomes can be compared where errors and results can. -/
instance decidableEqExcept {ε α : Type} [DecidableEq ε] [DecidableEq α] :
    DecidableEq (Except ε α)
  | .ok a, .ok b => decidable_of_iff (a = b) (by simp)
  | .error a, .error b => decidable_of_iff (a = b) (by simp)
  | .ok _, .error _ => .isFalse (by simp)
  | .error _, .ok _ => .isFalse (by simp)

end AmdBundle
