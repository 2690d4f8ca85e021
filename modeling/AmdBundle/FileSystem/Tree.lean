import AmdBundle.FileSystem.Basic

/-!
# AmdBundle.FileSystem.Tree — a tree of files

A file system held as a value: the files with their contents and the directories, each under the
names that lead to it from the root.  There are no links, so a location is followed step by step;
every step needs a directory to start from, the step up included, and a relative location leads
nowhere.
-/

namespace AmdBundle

/-- Files and directories by the names that lead to them. -/
structure FileTree where
  files : List (List String × ByteArray) := []
  dirs : List (List String) := []

namespace FileTree

def empty : FileTree := {}

def isFileAt (tree : FileTree) (names : List String) : Bool :=
  tree.files.any fun file => file.1 == names

/-- Whether the names lead to a directory; no names lead to the root. -/
def isDirAt (tree : FileTree) (names : List String) : Bool :=
  names.isEmpty || tree.dirs.contains names

/-- Follows steps from the place that `names` lead to. -/
def follow (tree : FileTree) (names : List String) : List Step → Option (List String)
  | [] => some names
  | step :: steps =>
    if tree.isDirAt names then
      match step with
      | .stay => tree.follow names steps
      | .up => tree.follow names.dropLast steps
      | .down name =>
        let next := names ++ [name]
        if tree.isFileAt next || tree.isDirAt next then tree.follow next steps else none
    else none

/-- The names that lead to a location, if there is something there. -/
def find? (tree : FileTree) (location : Location) : Option (List String) :=
  if location.absolute then
    match tree.follow [] location.steps with
    | some names => if !location.directory || tree.isDirAt names then some names else none
    | none => none
  else none

/-- The path text of the place that names lead to. -/
def pathOf (names : List String) : String :=
  "/" ++ Text.joinWith '/' names

def fileSystem (tree : FileTree) : FileSystem :=
  .ofLocations (fun location => ((tree.find? location).map tree.isFileAt).getD false)
    (fun location => ((tree.find? location).map tree.isDirAt).getD false)
    fun location =>
      match tree.find? location with
      | some names => .ok (pathOf names)
      | none => .error "No such file or directory"

def read? (tree : FileTree) (path : String) : Option ByteArray := do
  let names ← tree.find? (Location.ofText path)
  tree.files.lookup names

/-- Follows steps from the place that `names` lead to and makes the directories that are missing on
the way, up to the first file in it; gives the names that lead to the end, if it is reached. -/
def makeWay (tree : FileTree) (names : List String) :
    List Step → Option (List String) × FileTree
  | [] => (some names, tree)
  | .stay :: steps => tree.makeWay names steps
  | .up :: steps => tree.makeWay names.dropLast steps
  | .down name :: steps =>
    let next := names ++ [name]
    if tree.isFileAt next then (none, tree)
    else if tree.isDirAt next then tree.makeWay next steps
    else makeWay { tree with dirs := tree.dirs ++ [next] } next steps

/-- Makes the directory and all those on the way to it. -/
def mkdir (tree : FileTree) (path : String) : FileTree :=
  let location := Location.ofText path
  if location.absolute then (tree.makeWay [] location.steps).2 else tree

/-- Writes the file and makes the directories on the way to it; a directory stays what it is. -/
def write (tree : FileTree) (path : String) (content : ByteArray) : FileTree :=
  let location := Location.ofText path
  if !location.absolute then tree
  else
    match tree.makeWay [] location.steps.dropLast, location.steps.getLast? with
    | (some dir, tree), some (.down name) =>
      let names := dir ++ [name]
      if location.directory || tree.isDirAt names then tree
      else
        let others := tree.files.filter fun file => file.1 != names
        { tree with files := others ++ [(names, content)] }
    | (_, tree), _ => tree

/-- Removes the file, or the directory with all that is below it. -/
def remove (tree : FileTree) (path : String) : FileTree :=
  match tree.find? (Location.ofText path) with
  | none => tree
  | some names =>
    { files := tree.files.filter fun file => !names.isPrefixOf file.1
      dirs := tree.dirs.filter fun dir => !names.isPrefixOf dir }

end FileTree
end AmdBundle
