import AmdBundle.Proofs.Walk.Visited

/-!
# AmdBundle.Proofs.Walk.Literals — the string literals of a program

The string literals of a program from left to right (`literalsOfNodes`), and the same with a mark
that tells which of them stand inside a `try` block of the innermost function around them
(`literalUsesOfNodes`).
-/

namespace AmdBundle

mutual

def Expr.literals : Expr → List String
  | .str _ value => [value]
  | .array _ elements => literalsOfExprs elements
  | .function _ _ body => literalsOfNodes body
  | .call _ _ _ args => literalsOfExprs args
  | .object _ | .ident _ _ | .other _ => []

def literalsOfExprs : List Expr → List String
  | [] => []
  | e :: rest => e.literals ++ literalsOfExprs rest

def literalsOfNodes : List Node → List String
  | [] => []
  | .expr e :: rest => e.literals ++ literalsOfNodes rest
  | .tryCatch block handler :: rest =>
    literalsOfNodes block ++ literalsOfNodes handler ++ literalsOfNodes rest

end

mutual

/-- The string literals of an expression from left to right, each with whether it stands inside a
`try` block of the innermost function around it; `inTry` is so for the expression itself. -/
def Expr.literalUses (inTry : Bool) : Expr → List (String × Bool)
  | .str _ value => [(value, inTry)]
  | .array _ elements => literalUsesOfExprs inTry elements
  | .function _ _ body => literalUsesOfNodes false body
  | .call _ _ _ args => literalUsesOfExprs inTry args
  | .object _ | .ident _ _ | .other _ => []

def literalUsesOfExprs (inTry : Bool) : List Expr → List (String × Bool)
  | [] => []
  | e :: rest => e.literalUses inTry ++ literalUsesOfExprs inTry rest

def literalUsesOfNodes (inTry : Bool) : List Node → List (String × Bool)
  | [] => []
  | .expr e :: rest => e.literalUses inTry ++ literalUsesOfNodes inTry rest
  | .tryCatch block handler :: rest =>
    literalUsesOfNodes true block ++ literalUsesOfNodes inTry handler ++
      literalUsesOfNodes inTry rest

end

theorem literalUsesOfExprs_eq (inTry : Bool) (es : List Expr) :
    literalUsesOfExprs inTry es = es.flatMap (Expr.literalUses inTry) := by
  induction es with
  | nil => rfl
  | cons e es ih => rw [literalUsesOfExprs, ih, List.flatMap_cons]

theorem Expr.literalUses_of_literal {e : Expr} {text : String} (h : e.literal? = some text)
    (inTry : Bool) : e.literalUses inTry = [(text, inTry)] := by
  cases e with
  | str span value =>
    obtain rfl := Option.some.inj h
    rfl
  | _ => simp [literal?] at h

theorem Expr.literalUses_of_constArray {e : Expr} {ids : List String}
    (h : e.evaluate = .constArray ids) (inTry : Bool) :
    e.literalUses inTry = ids.map fun id => (id, inTry) := by
  obtain ⟨span, elements, rfl, hall⟩ := literals_of_constArray h
  rw [literalUses, literalUsesOfExprs_eq]
  clear h
  induction elements generalizing ids with
  | nil =>
    obtain rfl : [] = ids := Option.some.inj hall
    rfl
  | cons first elements ih =>
    rw [List.mapM_cons] at hall
    obtain ⟨text, htext, hall⟩ := Option.bind_eq_some_iff.mp hall
    obtain ⟨rest, hrest, hcons⟩ := Option.bind_eq_some_iff.mp hall
    obtain rfl : text :: rest = ids := Option.some.inj hcons
    rw [List.flatMap_cons, literalUses_of_literal htext, ih hrest]
    rfl

mutual

theorem map_fst_literalUsesOfNodes (inTry : Bool) (nodes : List Node) :
    (literalUsesOfNodes inTry nodes).map Prod.fst = literalsOfNodes nodes := by
  match nodes with
  | [] => rfl
  | .expr e :: rest =>
    rw [literalUsesOfNodes, literalsOfNodes, List.map_append, map_fst_literalUses inTry e,
      map_fst_literalUsesOfNodes inTry rest]
  | .tryCatch block onError :: rest =>
    rw [literalUsesOfNodes, literalsOfNodes, List.map_append, List.map_append,
      map_fst_literalUsesOfNodes true block, map_fst_literalUsesOfNodes inTry onError,
      map_fst_literalUsesOfNodes inTry rest]
termination_by sizeOf nodes

theorem map_fst_literalUses (inTry : Bool) (e : Expr) :
    (e.literalUses inTry).map Prod.fst = e.literals := by
  match e with
  | .call id span callee args =>
    rw [Expr.literalUses, Expr.literals, map_fst_literalUsesOfExprs inTry args]
  | .array span elements =>
    rw [Expr.literalUses, Expr.literals, map_fst_literalUsesOfExprs inTry elements]
  | .function span params body =>
    rw [Expr.literalUses, Expr.literals, map_fst_literalUsesOfNodes false body]
  | .str .. | .object .. | .ident .. | .other .. => rfl
termination_by sizeOf e

theorem map_fst_literalUsesOfExprs (inTry : Bool) (es : List Expr) :
    (literalUsesOfExprs inTry es).map Prod.fst = literalsOfExprs es := by
  match es with
  | [] => rfl
  | e :: rest =>
    rw [literalUsesOfExprs, literalsOfExprs, List.map_append, map_fst_literalUses inTry e,
      map_fst_literalUsesOfExprs inTry rest]
termination_by sizeOf es

end

end AmdBundle
