import AmdBundle.AbsMid.Basic
import AmdBundle.Dependency
import AmdBundle.Proofs.HasExpr.Names
import AmdBundle.Proofs.Loader.Normalize

/-!
# AmdBundle.Proofs.AbsMid.Separators — the segments of a request and of its absolute id

The absolute id of a request has a segment for each segment of the request, so no separator is lost
(`separators_le_resolve`), and none is added if no segment gets one (`separators_resolve`).  Where
the configuration writes none, the only other source is the referring module: its directory goes
into every relative segment, whether or not there are separators in it.  Exactly the modules whose
directory has none are safe (`separators_resolve_iff`).  A module that was itself reached through a
loader plugin is not (`separators_resolve_pluginModule`).
-/

namespace AmdBundle

open Text

namespace AbsMid

variable {loader : Loader} {issuer previous : Option String} {request segment : String}

def separators (text : String) : Nat := text.toList.count '!'

theorem separators_eq_zero_iff {text : String} : separators text = 0 ↔ '!' ∉ text.toList :=
  List.count_eq_zero

/-! ### Segment by segment -/

theorem resolveSegments_cons (segment : String) (rest : List String) :
    resolveSegments loader issuer previous (segment :: rest) =
      resolveSegment loader issuer previous segment ::
        resolveSegments loader issuer (some (resolveSegment loader issuer previous segment))
          rest := rfl

theorem length_resolveSegments (segments : List String) :
    (resolveSegments loader issuer previous segments).length = segments.length := by
  induction segments generalizing previous with
  | nil => rfl
  | cons segment rest ih => rw [resolveSegments_cons, List.length_cons, ih, List.length_cons]

theorem not_mem_resolveSegment
    (hloader : ∀ id : String, '!' ∉ id.toList → '!' ∉ (loader.toAbsMid id issuer).toList)
    (h : '!' ∉ segment.toList) :
    '!' ∉ (resolveSegment loader issuer previous segment).toList := by
  rw [resolveSegment]
  split
  · have hread : (HasExpr.ofText segment).Avoids '!' := (HasExpr.avoids_readParts (.inl h)).1
    exact (hread.resolve hloader).not_mem_text (by decide) (by decide)
  · exact hloader segment h

theorem not_mem_resolveSegments (previous : Option String)
    (hloader : ∀ id : String, '!' ∉ id.toList → '!' ∉ (loader.toAbsMid id issuer).toList)
    {segments : List String} (h : ∀ segment ∈ segments, '!' ∉ segment.toList) :
    ∀ resolved ∈ resolveSegments loader issuer previous segments, '!' ∉ resolved.toList := by
  induction segments generalizing previous with
  | nil => simp [resolveSegments]
  | cons segment rest ih =>
    obtain ⟨hsegment, hrest⟩ := List.forall_mem_cons.mp h
    rw [resolveSegments_cons]
    exact List.forall_mem_cons.mpr ⟨not_mem_resolveSegment hloader hsegment, ih _ hrest⟩

/-! ### Whole requests -/

theorem resolve_of_not_mem (hne : request.isEmpty = false) (h : '!' ∉ request.toList) :
    resolve loader request issuer = loader.toAbsMid request issuer := by
  rw [resolve, hne, if_neg Bool.false_ne_true, split_of_not_mem h, resolveSegments_cons,
    resolveSegment]
  exact String.ofList_toList

/-- The absolute id has the separators of the request, and those that its segments got. -/
theorem separators_resolve_eq :
    separators (resolve loader request issuer) =
      separators request + if request.isEmpty then 0 else
        ((resolveSegments loader issuer none (split '!' request)).map
          String.toList).flatten.count '!' := by
  rw [resolve]
  split
  · rename_i hempty
    rw [String.isEmpty_iff.mp hempty]
    rfl
  · have hparts : (split '!' request).length = separators request + 1 := by
      rw [split, List.length_map, length_splitOn, separators]
    have hne : (resolveSegments loader issuer none (split '!' request)).map String.toList ≠ [] := by
      intro hnil
      have hlength := congrArg List.length hnil
      simp [length_resolveSegments, hparts] at hlength
    have hcount := count_join '!' hne
    rw [List.length_map, length_resolveSegments, hparts] at hcount
    show (String.ofList (join '!' _)).toList.count '!' = _
    rw [String.toList_ofList]
    omega

theorem separators_le_resolve (loader : Loader) (request : String) (issuer : Option String) :
    separators request ≤ separators (resolve loader request issuer) := by
  rw [separators_resolve_eq]
  exact Nat.le_add_right _ _

theorem separators_resolve
    (hloader : ∀ id : String, '!' ∉ id.toList → '!' ∉ (loader.toAbsMid id issuer).toList) :
    separators (resolve loader request issuer) = separators request := by
  have hsegments : ∀ segment ∈ split '!' request, '!' ∉ segment.toList := by
    intro segment hsegment
    obtain ⟨part, hpart, rfl⟩ := List.mem_map.mp hsegment
    rw [String.toList_ofList]
    exact not_mem_of_mem_splitOn hpart
  have hnone : ((resolveSegments loader issuer none (split '!' request)).map
      String.toList).flatten.count '!' = 0 := by
    rw [count_flatten_eq_zero_iff]
    intro part hpart
    obtain ⟨resolved, hresolved, rfl⟩ := List.mem_map.mp hpart
    exact not_mem_resolveSegments none hloader hsegments resolved hresolved
  rw [separators_resolve_eq, hnone, ite_self, Nat.add_zero]

/-! ### Referring modules -/

/-- The loader of the empty configuration. -/
def unconfigured : ConfiguredLoader := ⟨{}, []⟩

theorem lacks_unconfigured (c : Char) : unconfigured.Lacks c :=
  ⟨by simp [unconfigured], by simp [unconfigured], by simp [unconfigured]⟩

theorem normalize_unconfigured_of_path {depth : Nat} {id path : String} {reference : Option String}
    (hverbatim : ConfiguredLoader.isVerbatim id = false)
    (hpath : ConfiguredLoader.absolutePath? id reference = some path) :
    unconfigured.normalize depth id reference = path := by
  have hway := unconfigured.normalizes depth id reference
  generalize unconfigured.normalize depth id reference = result at hway ⊢
  cases hway with
  | verbatim htrue => simp [hverbatim] at htrue
  | unplaced _ hnone => simp [hpath] at hnone
  | escaped _ hsome => exact (Option.some.inj (hpath.symm.trans hsome)).symm
  | settled _ hsome =>
    obtain rfl := Option.some.inj (hpath.symm.trans hsome)
    -- the empty configuration has neither a map nor packages
    cases reference <;> rfl
  | replaced _ _ _ halias => simp [ConfiguredLoader.matchAlias?, unconfigured] at halias

theorem normalize_unconfigured (depth : Nat) {id : String} (context : String)
    (hverbatim : ConfiguredLoader.isVerbatim id = false)
    (hrelative : ModuleId.isRelative id = true) :
    unconfigured.normalize depth id (some context) = ModuleId.siblingPath context id :=
  normalize_unconfigured_of_path hverbatim (if_pos hrelative)

/-- **Segments.**  The absolute id of a request never has fewer separators than the request.  It has
as many, for every request and every configuration that writes no separator, exactly if the request
comes from nowhere or from a module whose directory has no separator in it. -/
theorem separators_resolve_iff (issuer : Option String) :
    (∀ (loader : Loader) (request : String),
        separators request ≤ separators (resolve loader request issuer)) ∧
      ((∀ loader : ConfiguredLoader, loader.Lacks '!' → ∀ request : String,
          separators (resolve loader.toLoader request issuer) = separators request) ↔
        ∀ context, issuer = some context → '!' ∉ (ModuleId.directory context).toList) := by
  refine ⟨fun loader request => separators_le_resolve loader request issuer, ?_, ?_⟩
  · rintro hkeeps context rfl hmem
    have hcount := hkeeps unconfigured (lacks_unconfigured '!') "./x"
    have hzero : separators "./x" = 0 := by decide
    rw [resolve_of_not_mem (by decide) (by decide), ConfiguredLoader.toAbsMid_toLoader,
      normalize_unconfigured _ context (by decide) (by decide), hzero, separators_eq_zero_iff]
      at hcount
    have hdown : ModuleId.segments "./x" = [['.'], ['x']] := by decide
    exact hcount
      (ModuleId.mem_siblingPath_down (by decide) hmem hdown (by decide) (by decide))
  · intro hsafe loader hlacks request
    refine separators_resolve fun id hid hmem => ?_
    rcases ConfiguredLoader.mem_normalize hlacks (by decide) hmem with
      hmem | ⟨context, hissuer, hmem⟩
    · exact hid hmem
    · exact hsafe context hissuer hmem

/-- A module in `text!app/` gives its separator to the ids beside it. -/
theorem separators_resolve_pluginModule :
    (ModuleIdentity.mk (some "text!app/x") "text!/src/app/x.js").context = "text!app/x" ∧
      unconfigured.Lacks '!' ∧ separators "./b" = 0 ∧
      resolve unconfigured.toLoader "./b" (some "text!app/x") = "text!app/b" ∧
      separators "text!app/b" = 1 :=
  ⟨rfl, lacks_unconfigured '!', by decide, by decide +kernel, by decide⟩

end AbsMid
end AmdBundle
