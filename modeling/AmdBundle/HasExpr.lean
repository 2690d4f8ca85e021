/-!
# AmdBundle.HasExpr — feature conditionals

The resource of the loader plugin `dojo/has` chooses a module by features: `feature?a:b` is `a`
where the feature holds and `b` where it does not, and either branch may be a conditional again.
There are no brackets: a colon belongs to the nearest question mark before it that has none.

* `HasExpr.ofText` reads every text; a missing branch is the empty id, and what cannot belong to the
  expression is left out: behind its end an expression can only be followed by a colon.
* `HasExpr.resolve` decides the conditionals whose feature is known and passes the ids that remain
  to a function.
* `HasExpr.text` writes an expression.
-/

namespace AmdBundle

inductive HasExpr where
  | mid (id : String)
  | cond (feature : String) (whenTrue whenFalse : HasExpr)
  deriving DecidableEq, Repr

namespace HasExpr

/-- The loader plugin whose resources are conditionals. -/
def pluginId : String := "dojo/has"

/-- The expression whose first term, a feature or an id, has one more character in front. -/
def cons (c : Char) : HasExpr → HasExpr
  | mid id => mid (String.ofList (c :: id.toList))
  | cond feature whenTrue whenFalse => cond (String.ofList (c :: feature.toList)) whenTrue whenFalse

/-- The expressions of a text between the colons that belong to no question mark in it, the first
one apart.  Read from the end: a question mark makes the next two of them its branches. -/
def readParts : List Char → HasExpr × List HasExpr
  | [] => (mid "", [])
  | c :: cs =>
    let (first, others) := readParts cs
    if c = ':' then (mid "", first :: others)
    else if c = '?' then
      match others with
      | [] => (cond "" first (mid ""), [])
      | second :: others => (cond "" first second, others)
    else (first.cons c, others)

def ofText (text : String) : HasExpr :=
  (readParts text.toList).1

/-- Decides the conditionals on known features and passes every id that is left, the empty one
aside, to `normalize`. -/
def resolve (feature : String → Option Bool) (normalize : String → String) : HasExpr → HasExpr
  | mid id => if id.isEmpty then mid id else mid (normalize id)
  | cond name whenTrue whenFalse =>
    match feature name with
    | some true => whenTrue.resolve feature normalize
    | some false => whenFalse.resolve feature normalize
    | none => cond name (whenTrue.resolve feature normalize) (whenFalse.resolve feature normalize)

def text : HasExpr → String
  | mid id => id
  | cond feature whenTrue whenFalse => feature ++ "?" ++ whenTrue.text ++ ":" ++ whenFalse.text

end HasExpr
end AmdBundle
