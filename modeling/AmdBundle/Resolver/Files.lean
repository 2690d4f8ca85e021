import AmdBundle.FileSystem.Basic
import AmdBundle.Resolver.Basic
import AmdBundle.ModuleId

/-!
# AmdBundle.Resolver.Files — requests resolved to files

The segments of a request before the last `!` name loaders; the last one is the resource, and what
follows its first question mark is a query.  The path part of the resource is taken against the
directory of the request if it begins with `./` or `../`, stands alone if it is absolute, and is a
module id otherwise, which the aliases or the base directory turn into a path.  A path names itself
if it is a file, or else the file with one of the known extensions behind it, or else, if it is a
directory, the index file in it.

What was found is kept under the directory and the path part; failures are not kept.
-/

namespace AmdBundle

/-- Where module ids are looked up. -/
structure FileResolver (π : Type := String) where
  /-- What ids begin with, and the directory that it stands for. -/
  aliases : List (String × π) := []
  /-- The directory for all other ids. -/
  baseDir : Option π := none
  deriving DecidableEq, Repr

namespace FileResolver

open PathKind

/-- The paths found so far, by directory and path part. -/
abbrev Cache (π : Type := String) : Type := List ((π × String) × π)

def extensions : List String := [".js", ".ts", ".jsx", ".tsx"]

/-- Whether a path part is taken against the directory of its request. -/
def isDotted (specifier : String) : Bool :=
  Text.startsWith specifier "./" || Text.startsWith specifier "../"

section Paths

variable {π : Type} [PathKind π]

/-- The path kept under a directory and a path part.  Directories are compared by the steps they
take. -/
def lookup? (cache : Cache π) (context : π) (specifier : String) : Option π :=
  (cache.find? fun entry =>
    (location entry.1.1).same (location context) && entry.1.2 == specifier).map Prod.snd

def idPath (resolver : FileResolver π) (specifier : String) (context : π) :
    Except ResolveError π :=
  match ModuleId.longestCover resolver.aliases specifier with
  | some (key, dir) =>
    let tail := (ModuleId.coveredBy? key specifier).getD ""
    let rest := String.ofList (tail.toList.dropWhile (· == '/'))
    .ok (if rest.isEmpty then dir else join dir rest)
  | none =>
    match resolver.baseDir with
    | some base => .ok (join base specifier)
    | none => .error ⟨specifier, display context, "No alias or base directory for module id"⟩

/-- The path to look for. -/
def targetPath (resolver : FileResolver π) (specifier : String) (context : π) :
    Except ResolveError π :=
  if isDotted specifier then .ok (join context specifier)
  else if FilePath.isAbsolute specifier then .ok (ofText specifier)
  else resolver.idPath specifier context

/-- The files that a path may name, in order of preference.  An extension is put behind the text
that is shown for the path. -/
def candidates (fs : FileSystem π) (target : π) : List π :=
  target :: extensions.map (fun ext => ofText (display target ++ ext)) ++
    if fs.isDir target then extensions.map fun ext => join target ("index" ++ ext) else []

def findFile (fs : FileSystem π) (target : π) (specifier : String) (context : π) :
    Except ResolveError π :=
  match (candidates fs target).find? fs.isFile with
  | some path =>
    match fs.canonical path with
    | .ok path => .ok path
    | .error reason => .error ⟨specifier, display context, reason⟩
  | none => .error ⟨specifier, display context, "File not found"⟩

/-- The file for a path part, without regard to what is kept. -/
def findResource (resolver : FileResolver π) (fs : FileSystem π) (specifier : String)
    (context : π) : Except ResolveError π := do
  findFile fs (← resolver.targetPath specifier context) specifier context

/-- The file for a path part. -/
def resolveResource (resolver : FileResolver π) (fs : FileSystem π) (specifier : String)
    (context : π) (cache : Cache π) : Except ResolveError π × Cache π :=
  match lookup? cache context specifier with
  | some path => (.ok path, cache)
  | none =>
    match resolver.findResource fs specifier context with
    | .ok path => (.ok path, ((context, specifier), path) :: cache)
    | .error error => (.error error, cache)

end Paths

/-- The parts of a request. -/
structure RequestParts where
  loaders : List String
  specifier : String
  /-- From the question mark on; empty if there is none. -/
  query : String
  deriving DecidableEq, Repr

namespace RequestParts

def ofRequest (request : String) : RequestParts :=
  let segments := Text.split '!' request
  let resource := (segments.getLast?.getD "").toList
  { loaders := segments.dropLast
    specifier := String.ofList (resource.takeWhile (· != '?'))
    query := String.ofList (resource.dropWhile (· != '?')) }

/-- The identifier of the module with the given loaders and query, and the text that is shown for
its file. -/
def identifier (parts : RequestParts) (resource : String) : String :=
  String.join (parts.loaders.map (· ++ "!")) ++ resource ++ parts.query

end RequestParts

def resolve {π : Type} [PathKind π] (resolver : FileResolver π) (fs : FileSystem π) :
    Resolver (Cache π) π := fun data cache =>
  let parts := RequestParts.ofRequest data.request
  if parts.specifier.isEmpty then
    (.error ⟨data.request, display data.context, "Empty resource"⟩, cache)
  else
    match resolver.resolveResource fs parts.specifier data.context cache with
    | (.error error, cache) => (.error error, cache)
    | (.ok resource, cache) =>
      (.ok {
        request := parts.identifier (display resource)
        userRequest := data.request
        rawRequest := data.rawRequest.getD data.request
        resource
        loaders := parts.loaders }, cache)

end FileResolver
end AmdBundle
