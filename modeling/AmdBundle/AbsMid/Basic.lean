import AmdBundle.HasExpr
import AmdBundle.Loader.Basic
import AmdBundle.Text.Split

/-!
# AmdBundle.AbsMid.Basic — the absolute id of a request

A request is a list of segments between exclamation marks: loader plugins, and last the resource.
Each segment gets its absolute form on its own; behind the plugin `dojo/has` a segment with a
question mark is a conditional, and its ids get theirs.
-/

namespace AmdBundle
namespace AbsMid

open Text

/-- The absolute form of a segment; `previous` is that of the segment before it. -/
def resolveSegment (loader : Loader) (issuer previous : Option String) (segment : String) :
    String :=
  if previous == some HasExpr.pluginId && hasChar '?' segment then
    ((HasExpr.ofText segment).resolve loader.feature? fun id => loader.toAbsMid id issuer).text
  else loader.toAbsMid segment issuer

/-- The absolute forms of segments; `previous` is that of the segment before them. -/
def resolveSegments (loader : Loader) (issuer : Option String) (previous : Option String) :
    List String → List String
  | [] => []
  | segment :: rest =>
    let resolved := resolveSegment loader issuer previous segment
    resolved :: resolveSegments loader issuer (some resolved) rest

/-- The absolute id of a request as the module `issuer` makes it.  The empty request stays empty. -/
def resolve (loader : Loader) (request : String) (issuer : Option String) : String :=
  if request.isEmpty then ""
  else joinWith '!' (resolveSegments loader issuer none (split '!' request))

end AbsMid
end AmdBundle
