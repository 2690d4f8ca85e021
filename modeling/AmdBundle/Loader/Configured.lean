import AmdBundle.Error
import AmdBundle.Loader.Basic
import AmdBundle.LoaderConfig
import AmdBundle.ModuleId
import AmdBundle.Pattern.Reader
import AmdBundle.Pattern.Search

/-!
# AmdBundle.Loader.Configured — ids by a configuration

The rule for module ids that a `LoaderConfig` gives.  An id that is a path or an address
(`isVerbatim`) stays as it is.  Any other is made absolute against the referring module and
compacted; then the map, the packages and the aliases are applied in this order, and the id that an
alias gives starts over, without a referring module.
-/

namespace AmdBundle

structure Alias where
  pattern : Machine
  replacement : String

/-- A configuration whose alias patterns have been read. -/
structure ConfiguredLoader where
  config : LoaderConfig
  aliases : List Alias

namespace ConfiguredLoader

open ModuleId Text

/-- How often aliases are applied one after the other. -/
def maxAliasDepth : Nat := 16

/-- The alias with a pattern and a replacement; the pattern must be well formed. -/
def aliasOf (pair : String × String) : Except Error Alias :=
  match Regex.ofText? pair.1 with
  | some pattern => .ok ⟨pattern.machine, pair.2⟩
  | none => .error (.badPattern pair.1)

/-- The configuration made ready; of alias patterns that are not well formed the first one is the
error. -/
def ofConfig (config : LoaderConfig) : Except Error ConfiguredLoader := do
  return ⟨config, ← config.aliases.mapM aliasOf⟩

/-- Whether an id is left as it is: a path from the root, an address, or the name of a script file.
-/
def isVerbatim (id : String) : Bool :=
  startsWith id "/" || hasChar ':' id || endsWith id ".js"

/-- The table of the map for a referring module: that of the longest id that covers it, or else that
of `*`. -/
def tableFor? (loader : ConfiguredLoader) (reference : Option String) : Option (Table String) :=
  let specific := reference.bind fun reference =>
    longestCover (loader.config.map.filter fun entry => entry.1 != "*") reference
  match specific with
  | some entry => some entry.2
  | none => loader.config.map.lookup "*"

/-- The id with its beginning replaced as the table says. -/
def applyTable (table : Table String) (id : String) : String :=
  match longestCover table id with
  | some (key, replacement) => replacement ++ (coveredBy? key id).getD ""
  | none => id

/-- The id after the map. -/
def applyMap (loader : ConfiguredLoader) (id : String) (reference : Option String) : String :=
  match loader.tableFor? reference with
  | some table => applyTable table id
  | none => id

/-- The id after the packages: the bare name of a package stands for its main module. -/
def applyPackages (loader : ConfiguredLoader) (id : String) : String :=
  match loader.config.package? id with
  | some package => id ++ "/" ++ package.main
  | none => id

/-- The replacement of the alias with the longest match in the id, of several the first one. -/
def matchAlias? (loader : ConfiguredLoader) (id : String) : Option String :=
  let matched := loader.aliases.filterMap fun entry =>
    (entry.pattern.matchLength? id).map (·, entry.replacement)
  let best := matched.foldl
    (fun (best : Option (Nat × String)) found =>
      match best with
      | some longest => if found.1 ≤ longest.1 then best else some found
      | none => some found)
    none
  best.map Prod.snd

/-- The path of an id that is not verbatim, made absolute and compacted; `none` if it is relative
and there is no referring module. -/
def absolutePath? (id : String) (reference : Option String) : Option String :=
  if isRelative id then reference.map (siblingPath · id) else some (compactPath id)

/-- The absolute form of an id, with at most `depth` aliases applied on the way. -/
def normalize (loader : ConfiguredLoader) : Nat → String → Option String → String
  | depth, id, reference =>
    if isVerbatim id then id
    else
      match absolutePath? id reference with
      | none => id
      | some path =>
        if isRelative path then path
        else
          let mapped := loader.applyPackages (loader.applyMap path reference)
          match depth, loader.matchAlias? mapped with
          | depth + 1, some replacement => loader.normalize depth replacement none
          | _, _ => mapped

def toAbsMid (loader : ConfiguredLoader) (id : String) (reference : Option String) : String :=
  loader.normalize maxAliasDepth id reference

def toLoader (loader : ConfiguredLoader) : Loader where
  toAbsMid := loader.toAbsMid
  feature? := loader.config.feature?

end ConfiguredLoader
end AmdBundle
