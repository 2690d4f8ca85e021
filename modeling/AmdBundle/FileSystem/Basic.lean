import AmdBundle.FilePath.Kind

/-!
# AmdBundle.FileSystem.Basic — what a resolver asks of a file system

Three questions about a path, answered as they stand at one moment.
-/

namespace AmdBundle

/-- The answers of a file system about paths. -/
structure FileSystem (π : Type := String) [PathKind π] where
  /-- Whether the path names a file. -/
  isFile : π → Bool
  /-- Whether the path names a directory. -/
  isDir : π → Bool
  /-- The absolute path of what the path names, without `.`, `..` and repeated slashes, or why it
  has none. -/
  canonical : π → Except String π
  /-- The assumption on a file system: two spellings of one path have one answer. -/
  ignoresSpelling : ∀ a b, PathKind.location a = PathKind.location b →
    isFile a = isFile b ∧ isDir a = isDir b ∧ canonical a = canonical b

/-- The file system that answers by where a path leads. -/
def FileSystem.ofLocations {π : Type} [PathKind π] (isFile isDir : Location → Bool)
    (canonical : Location → Except String π) : FileSystem π where
  isFile path := isFile (PathKind.location path)
  isDir path := isDir (PathKind.location path)
  canonical path := canonical (PathKind.location path)
  ignoresSpelling a b h := by rw [h]; exact ⟨rfl, rfl, rfl⟩

end AmdBundle
