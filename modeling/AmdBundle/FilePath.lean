import AmdBundle.Text.Split

/-!
# AmdBundle.FilePath — paths as written

A path is kept as the text it was given: joining and taking the directory work on the text, and
repeated slashes, `.` and `..` stay where they are.  What a text names is told by its steps
(`Location.ofText`), and two texts with the same steps are one path for every table of paths.
-/

namespace AmdBundle
namespace FilePath

open Text

/-- Whether the path starts at the root. -/
def isAbsolute (path : String) : Bool :=
  path.toList.head? == some '/'

/-- `rest` taken from the directory `dir`; an absolute `rest` stands alone. -/
def join (dir rest : String) : String :=
  if isAbsolute rest then rest
  else if dir.isEmpty || dir.toList.getLast? == some '/' then dir ++ rest
  else dir ++ "/" ++ rest

def slashed (path : String) : String :=
  replaceChar '\\' '/' path

/-- Whether a segment, not the first one, names nothing. -/
def isIdle (segment : List Char) : Bool :=
  segment == [] || segment == ['.']

/-- The segments behind the first, last one first, from the last that names something on. -/
def dropIdle (segments : List (List Char)) : List (List Char) :=
  segments.dropWhile isIdle

/-- The directory that a path lies in, as text; `none` for the root and for the empty path. -/
def parent? (path : String) : Option String :=
  match splitOn '/' path.toList with
  | [] => none
  | first :: rest =>
    match dropIdle rest.reverse with
    | [] => if first.isEmpty then none else some ""
    | _ :: above =>
      match (dropIdle above).reverse with
      | [] => some (if first.isEmpty then "/" else String.ofList first)
      | kept => some (String.ofList (Text.join '/' (first :: kept)))

end FilePath

/-- One step of a path. -/
inductive Step where
  /-- To an entry of the directory. -/
  | down (name : String)
  /-- To the directory above. -/
  | up
  /-- Nowhere; only at the start of a relative path. -/
  | stay
  deriving DecidableEq, Repr

/-- What a path text names: where it starts, the steps it takes, and whether it must end at a
directory. -/
structure Location where
  absolute : Bool
  steps : List Step
  directory : Bool
  deriving DecidableEq, Repr

namespace Location

/-- The step of a segment behind the first one. -/
def stepOf? (segment : List Char) : Option Step :=
  if FilePath.isIdle segment then none
  else if segment = ['.', '.'] then some .up
  else some (.down (String.ofList segment))

def ofText (path : String) : Location :=
  match Text.splitOn '/' path.toList with
  | [] => ⟨false, [], false⟩
  | first :: rest =>
    let start : List Step :=
      if first = [] then [] else if first = ['.'] then [.stay] else (stepOf? first).toList
    { absolute := first.isEmpty && !rest.isEmpty
      steps := start ++ rest.filterMap stepOf?
      directory := (rest.getLast?.map FilePath.isIdle).getD false }

/-- Whether the same steps lead there from the same start. -/
def same (a b : Location) : Bool :=
  a.absolute == b.absolute && a.steps == b.steps

end Location
end AmdBundle
