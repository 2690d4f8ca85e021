import AmdBundle.Proofs.FilePath.Join

/-!
# AmdBundle.FilePath.Kind — kinds of paths

Little of a path matters to what is resolved to files: how it is made, where it leads, and the text
that is shown for it.  For a path that is a text this is the text itself; two paths of another kind
can be shown as one text.
-/

namespace AmdBundle

/-- A kind of paths. -/
class PathKind (π : Type) where
  /-- The path that a text names. -/
  ofText : String → π
  /-- The path `rest` taken from the directory `dir`; an absolute `rest` stands alone. -/
  join : π → String → π
  /-- Where the path leads. -/
  location : π → Location
  /-- The text that is shown for the path. -/
  display : π → String
  display_ofText : ∀ path, display (ofText path) = path
  display_join : ∀ dir rest, display (join dir rest) = FilePath.join (display dir) rest
  /-- Two spellings of a path are one path for the texts that name them, -/
  location_ofText : ∀ {a b}, Location.ofText a = Location.ofText b →
    location (ofText a) = location (ofText b)
  /-- for the texts that are shown for them, -/
  location_display : ∀ {a b}, location a = location b →
    Location.ofText (display a) = Location.ofText (display b)
  /-- and for what is taken from them. -/
  location_join : ∀ {a b rest}, (location a).same (location b) = true →
    FilePath.isAbsolute rest = false → location (join a rest) = location (join b rest)

/-- A path as text is shown as it is. -/
instance : PathKind String where
  ofText path := path
  join := FilePath.join
  location := Location.ofText
  display path := path
  display_ofText _ := rfl
  display_join _ _ := rfl
  location_ofText := id
  location_display := id
  location_join := Location.ofText_join_congr

end AmdBundle
