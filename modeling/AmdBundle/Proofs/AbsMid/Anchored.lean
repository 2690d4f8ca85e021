import AmdBundle.AbsMid.Basic
import AmdBundle.Proofs.Loader.Normalize
import Mathlib.Data.Set.Finite.Basic
import Mathlib.Logic.Function.Basic

/-!
# AmdBundle.Proofs.AbsMid.Anchored — requests that mean the same from everywhere

The module that makes a request has a part in its absolute id in two ways: ids that begin with a dot
are taken against it, and it chooses the table of the map.  A request without such ids
(`namesRelatively`) depends on it through the table alone (`resolve_congr`), so it has only finitely
many absolute ids (`finite_range_resolve`).
-/

namespace AmdBundle

open ModuleId Text

namespace HasExpr

def ids : HasExpr → List String
  | mid id => [id]
  | cond _ whenTrue whenFalse => whenTrue.ids ++ whenFalse.ids

theorem resolve_congr {feature : String → Option Bool} {normalize normalize' : String → String}
    {e : HasExpr} (h : ∀ id ∈ e.ids, normalize id = normalize' id) :
    e.resolve feature normalize = e.resolve feature normalize' := by
  induction e with
  | mid id => rw [resolve, resolve, h id List.mem_cons_self]
  | cond name whenTrue whenFalse ihTrue ihFalse =>
    rw [ids, List.forall_mem_append] at h
    rw [resolve, resolve, ihTrue h.1, ihFalse h.2]

end HasExpr

namespace ConfiguredLoader

variable {loader : ConfiguredLoader} {id : String} {reference reference' : Option String}

/-- An id that is not relative depends on the referring module through its table alone. -/
theorem normalize_congr (hid : isRelative id = false)
    (htable : loader.tableFor? reference = loader.tableFor? reference') (depth : Nat) :
    loader.normalize depth id reference = loader.normalize depth id reference' := by
  have hpath : ∀ reference, absolutePath? id reference = some (compactPath id) := by
    intro reference
    rw [absolutePath?, hid, if_neg Bool.false_ne_true]
  have hmap : ∀ path, loader.applyMap path reference = loader.applyMap path reference' := by
    intro path
    rw [applyMap, applyMap, htable]
  unfold normalize
  simp only [hpath, hmap]

theorem finite_range_tableFor? (loader : ConfiguredLoader) :
    (Set.range loader.tableFor?).Finite := by
  let tables := loader.config.map.map fun entry : String × Table String => some entry.2
  refine (List.finite_toSet (none :: tables)).subset ?_
  rintro found ⟨reference, rfl⟩
  cases htable : loader.tableFor? reference with
  | none => exact List.mem_cons_self
  | some table =>
    obtain ⟨key, hkey⟩ := mem_of_tableFor? htable
    exact List.mem_cons_of_mem _ (List.mem_map.mpr ⟨(key, table), hkey, rfl⟩)

end ConfiguredLoader

namespace AbsMid

variable {loader : ConfiguredLoader} {issuer issuer' previous : Option String}
  {request segment : String}

/-- Whether a segment names a module relative to another one, as an id or as a conditional. -/
def segmentNamesRelatively (segment : String) : Bool :=
  isRelative segment || hasChar '?' segment && (HasExpr.ofText segment).ids.any isRelative

/-- Whether a request names a module relative to another one in some segment. -/
def namesRelatively (request : String) : Bool :=
  (split '!' request).any segmentNamesRelatively

theorem resolveSegment_congr (h : segmentNamesRelatively segment = false)
    (htable : loader.tableFor? issuer = loader.tableFor? issuer') :
    resolveSegment loader.toLoader issuer previous segment =
      resolveSegment loader.toLoader issuer' previous segment := by
  rw [segmentNamesRelatively, Bool.or_eq_false_iff] at h
  have hids : ∀ id, isRelative id = false →
      loader.toLoader.toAbsMid id issuer = loader.toLoader.toAbsMid id issuer' :=
    fun id hid => ConfiguredLoader.normalize_congr hid htable _
  rw [resolveSegment, resolveSegment, hids segment h.1]
  split
  · rename_i hcond
    rw [Bool.and_eq_true] at hcond
    rw [hcond.2, Bool.true_and, List.any_eq_false] at h
    rw [HasExpr.resolve_congr fun id hid => hids id (Bool.eq_false_iff.mpr (h.2 id hid))]
  · rfl

theorem resolveSegments_congr {segments : List String}
    (h : ∀ segment ∈ segments, segmentNamesRelatively segment = false)
    (htable : loader.tableFor? issuer = loader.tableFor? issuer') :
    resolveSegments loader.toLoader issuer previous segments =
      resolveSegments loader.toLoader issuer' previous segments := by
  induction segments generalizing previous with
  | nil => rfl
  | cons segment rest ih =>
    obtain ⟨hsegment, hrest⟩ := List.forall_mem_cons.mp h
    rw [resolveSegments, resolveSegments, resolveSegment_congr hsegment htable]
    exact congrArg _ (ih hrest)

theorem resolve_congr (h : namesRelatively request = false)
    (htable : loader.tableFor? issuer = loader.tableFor? issuer') :
    resolve loader.toLoader request issuer = resolve loader.toLoader request issuer' := by
  rw [namesRelatively, List.any_eq_false] at h
  have hsegments : ∀ segment ∈ split '!' request, segmentNamesRelatively segment = false :=
    fun segment hsegment => Bool.eq_false_iff.mpr (h segment hsegment)
  rw [resolve, resolve, resolveSegments_congr hsegments htable]

/-- Whoever makes it, a request that names nothing relatively has one of finitely many ids. -/
theorem finite_range_resolve (loader : ConfiguredLoader) (h : namesRelatively request = false) :
    (Set.range (resolve loader.toLoader request)).Finite := by
  have hfactors : (resolve loader.toLoader request).FactorsThrough loader.tableFor? :=
    fun _ _ htable => resolve_congr h htable
  obtain ⟨idFor, hid⟩ := (Function.factorsThrough_iff _).mp hfactors
  rw [hid, Set.range_comp]
  exact Set.Finite.image idFor loader.finite_range_tableFor?

end AbsMid
end AmdBundle
