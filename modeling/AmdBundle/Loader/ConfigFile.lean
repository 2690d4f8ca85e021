import AmdBundle.Error
import AmdBundle.FileSystem.Tree
import AmdBundle.LoaderConfig

/-!
# AmdBundle.Loader.ConfigFile — configurations in files

A configuration file is a text in UTF-8.  One that is missing or is no text cannot be read; one
whose text does not write a configuration is not well formed.
-/

namespace AmdBundle
namespace LoaderConfig

/-- The configuration in the file at a path. -/
def ofFile (tree : FileTree) (path : String) : Except Error LoaderConfig :=
  match (tree.read? path).bind String.fromUTF8? with
  | none => .error (.configRead path)
  | some text =>
    match ofText? text with
    | none => .error (.configParse path)
    | some config => .ok config

end LoaderConfig
end AmdBundle
