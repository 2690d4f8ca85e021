/-!
# AmdBundle.Loader.Basic — what is asked of a loader

A loader gives every module id its absolute form and knows, at build time, the truth of some
features.  It is a pair of functions, so that any rule for ids can stand in its place.
-/

namespace AmdBundle

/-- A loader's rule for module ids and its build-time features. -/
structure Loader where
  /-- The absolute form of an id as the module with the second id names it, if there is one. -/
  toAbsMid : String → Option String → String
  /-- The truth of a feature, if it is known. -/
  feature? : String → Option Bool := fun _ => none

end AmdBundle
