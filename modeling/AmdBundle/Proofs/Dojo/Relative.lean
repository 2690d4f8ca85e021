import AmdBundle.Proofs.Dojo.RawRequest
import AmdBundle.Proofs.Resolver.Place

/-!
# AmdBundle.Proofs.Dojo.Relative — requests that stay relative

The adapter leaves a request alone whose absolute id still begins with a dot, for the resolver to
take it against the directory of the request.  The resolver has a test of its own: it takes the path
part of the request against the directory if it begins with `./` or `../`, and everything else that
is not absolute for a module id (`looksBelow_iff`).  The two tests do not agree on every request
that is left alone (`looksBelow_iff_of_staysRelative`, `dot_not_below`).
-/

namespace AmdBundle

namespace Text

theorem prefix_takeWhile_iff {p : Char → Bool} {start cs : List Char}
    (h : ∀ c ∈ start, p c = true) : start <+: cs.takeWhile p ↔ start <+: cs := by
  refine ⟨fun hstart => hstart.trans (List.takeWhile_prefix p), ?_⟩
  rintro ⟨rest, rfl⟩
  rw [List.takeWhile_append_of_pos h]
  exact List.prefix_append _ _

theorem startsWith_iff {text start : String} :
    startsWith text start = true ↔ start.toList <+: text.toList :=
  List.isPrefixOf_iff_prefix

end Text

open Text

theorem FilePath.isAbsolute_iff {path : String} :
    isAbsolute path = true ↔ startsWith path "/" = true := by
  rw [isAbsolute, beq_iff_eq, startsWith_iff]
  cases path.toList with
  | nil => decide
  | cons c cs =>
    show some c = some '/' ↔ ['/'] <+: c :: cs
    rw [List.cons_prefix_cons, Option.some.injEq]
    exact ⟨fun h => ⟨h.symm, List.nil_prefix⟩, fun h => h.1.symm⟩

namespace FileResolver

variable {files : FileResolver} {fs : FileSystem} {data : ResolveData} {specifier context : String}

/-! ### Below the directory, or by the aliases and the base directory -/

/-- Whatever the aliases, the base directory and the files, and whatever was asked before, the path
part is looked for below the directory of the request. -/
def LooksBelow (data : ResolveData) : Prop :=
  ∀ (files : FileResolver) (fs : FileSystem) (earlier : List ResolveData),
    (files.resolve fs data (files.cacheAfter fs earlier)).1 =
      answer data (findFile fs (FilePath.join data.context (pathPart data)) (pathPart data)
        data.context)

/-- Whatever the aliases, the base directory and the files, and whatever was asked before, the path
part is taken for a module id. -/
def LooksById (data : ResolveData) : Prop :=
  ∀ (files : FileResolver) (fs : FileSystem) (earlier : List ResolveData),
    (files.resolve fs data (files.cacheAfter fs earlier)).1 =
      answer data (do
        findFile fs (← files.idPath (pathPart data) data.context) (pathPart data) data.context)

/-- A path part that no module id is needed for. -/
def IsPath (specifier : String) : Prop :=
  isDotted specifier = true ∨ FilePath.isAbsolute specifier = true

theorem targetPath_of_isPath (h : IsPath specifier) :
    files.targetPath specifier context = .ok (FilePath.join context specifier) := by
  unfold targetPath
  split
  · rfl
  · rename_i hdotted
    have habsolute : FilePath.isAbsolute specifier = true := h.resolve_left hdotted
    rw [if_pos habsolute, FilePath.join, if_pos habsolute]
    rfl

theorem targetPath_of_not_isPath (h : ¬ IsPath specifier) :
    files.targetPath specifier context = files.idPath specifier context := by
  obtain ⟨hdotted, habsolute⟩ := not_or.mp h
  rw [targetPath, if_neg hdotted, if_neg habsolute]

theorem answer_of_pathPart_eq_empty (h : pathPart data = "") (found : Except ResolveError String) :
    answer data found = .error ⟨data.request, data.context, "Empty resource"⟩ := by
  unfold answer
  exact if_pos (by rw [← pathPart, h]; rfl)

theorem looksById_of_not_isPath (h : ¬ IsPath (pathPart data)) : LooksById data := by
  intro files fs earlier
  rw [(sound_cacheAfter earlier).fst_resolve, findResource, ← pathPart,
    targetPath_of_not_isPath h]

def noFiles : FileSystem := .ofLocations (fun _ => false) (fun _ => false) fun _ => .error ""

theorem LooksById.not_looksBelow (h : LooksById data) (hne : pathPart data ≠ "") :
    ¬ LooksBelow data := by
  intro hbelow
  have hboth := (h {} noFiles []).symm.trans (hbelow {} noFiles [])
  have hfalse : (pathPart data).isEmpty = false := by simpa using hne
  unfold answer at hboth
  dsimp only at hboth
  rw [← pathPart, hfalse, if_neg Bool.false_ne_true, if_neg Bool.false_ne_true] at hboth
  -- where there are no files either, the two fail for different reasons
  have hnone : findFile noFiles (FilePath.join data.context (pathPart data)) (pathPart data)
      data.context = .error ⟨pathPart data, data.context, "File not found"⟩ := rfl
  rw [hnone] at hboth
  have hid : idPath {} (pathPart data) data.context =
      .error ⟨pathPart data, data.context, "No alias or base directory for module id"⟩ := rfl
  rw [hid] at hboth
  have hreason : "No alias or base directory for module id" = "File not found" :=
    congrArg ResolveError.reason (Except.error.inj hboth)
  exact absurd hreason (by decide)

/-- A path part is looked for below the directory exactly if it is a path, or if there is none. -/
theorem looksBelow_iff : LooksBelow data ↔ pathPart data = "" ∨ IsPath (pathPart data) := by
  by_cases hpath : IsPath (pathPart data)
  · refine iff_of_true (fun files fs earlier => ?_) (.inr hpath)
    rw [(sound_cacheAfter earlier).fst_resolve, findResource, ← pathPart,
      targetPath_of_isPath hpath]
    rfl
  · rw [or_iff_left hpath]
    refine ⟨fun hbelow => ?_, fun hempty files fs earlier => ?_⟩
    · by_contra hne
      exact (looksById_of_not_isPath hpath).not_looksBelow hne hbelow
    · rw [(sound_cacheAfter earlier).fst_resolve, answer_of_pathPart_eq_empty hempty,
        answer_of_pathPart_eq_empty hempty]

/-! ### The path part of a request without loaders -/

theorem toList_pathPart (h : '!' ∉ data.request.toList) :
    (pathPart data).toList = data.request.toList.takeWhile (· != '?') := by
  rw [pathPart, RequestParts.ofRequest, split_of_not_mem h]
  exact String.toList_ofList

theorem startsWith_pathPart (h : '!' ∉ data.request.toList) {start : String}
    (hstart : '?' ∉ start.toList) :
    startsWith (pathPart data) start = true ↔ startsWith data.request start = true := by
  rw [startsWith_iff, startsWith_iff, toList_pathPart h]
  refine prefix_takeWhile_iff fun c hc => ?_
  simp only [bne_iff_ne]
  rintro rfl
  exact hstart hc

theorem pathPart_eq_empty_iff (h : '!' ∉ data.request.toList) (hne : data.request ≠ "") :
    pathPart data = "" ↔ startsWith data.request "?" = true := by
  rw [← String.toList_inj, toList_pathPart h, startsWith_iff]
  cases hcs : data.request.toList with
  | nil => exact absurd (String.toList_inj.mp hcs) hne
  | cons c cs =>
    show _ ↔ ['?'] <+: c :: cs
    rw [List.cons_prefix_cons, List.takeWhile_cons]
    by_cases hc : c = '?'
    · simp [hc]
    · simp [hc, Ne.symm hc]

end FileResolver

namespace Dojo

open FileResolver

variable {loader : Loader} {noModule : String} {data : ResolveData}

/-! ### Requests that the adapter leaves alone -/

/-- A request without a marker and without a loader that the adapter makes absolute, and whose id is
relative all the same. -/
structure StaysRelative (loader : Loader) (data : ResolveData) : Prop where
  unmarked : AbsMid.Marker.detach data.request = .ok none
  no_loader : '!' ∉ data.request.toList
  not_pseudo : ¬ NamesPseudo data.request
  relative : ∃ issuer, issuerContext? data = some issuer ∧
    ModuleId.isRelative (AbsMid.resolve loader data.request issuer) = true

theorem StaysRelative.request_ne_empty (h : StaysRelative loader data) : data.request ≠ "" := by
  intro hempty
  obtain ⟨issuer, -, hrelative⟩ := h.relative
  rw [hempty] at hrelative
  exact absurd hrelative (by simp [AbsMid.resolve, ModuleId.isRelative])

theorem StaysRelative.beforeResolve_eq (h : StaysRelative loader data) :
    beforeResolve loader noModule data = .ok { data with absMidAliases := [] } := by
  obtain ⟨issuer, hissuer, hrelative⟩ := h.relative
  have hpseudo := h.not_pseudo
  unfold NamesPseudo at hpseudo
  unfold beforeResolve
  rw [h.unmarked]
  dsimp only
  rw [if_neg hpseudo, hissuer]
  have hhead : ((AbsMid.resolve loader data.request issuer).toList.head? == some '.') = true :=
    hrelative
  dsimp only
  rw [readdress, if_pos hhead]

/-- **The two tests for a relative request.**  A request that the adapter leaves alone because its
absolute id is relative is looked for below its directory, by every resolver, exactly if it begins
with `./`, `../` or `/`, or has no path part; any other is taken for a module id. -/
theorem looksBelow_iff_of_staysRelative (h : StaysRelative loader data) :
    let left : ResolveData := { data with absMidAliases := [] }
    beforeResolve loader noModule data = .ok left ∧
      (LooksBelow left ↔
        startsWith data.request "./" = true ∨ startsWith data.request "../" = true ∨
          startsWith data.request "/" = true ∨ startsWith data.request "?" = true) ∧
      (LooksBelow left ∨ LooksById left) := by
  intro left
  have hloader : '!' ∉ left.request.toList := h.no_loader
  have hne : left.request ≠ "" := h.request_ne_empty
  refine ⟨h.beforeResolve_eq, ?_, ?_⟩
  · rw [looksBelow_iff, IsPath, isDotted, Bool.or_eq_true, FilePath.isAbsolute_iff,
      startsWith_pathPart hloader (by decide), startsWith_pathPart hloader (by decide),
      startsWith_pathPart hloader (by decide), pathPart_eq_empty_iff hloader hne]
    -- the same four, with the missing path part last
    rw [or_comm, or_assoc, or_assoc]
  · by_cases hpath : IsPath (pathPart left)
    · exact .inl (looksBelow_iff.mpr (.inr hpath))
    · exact .inr (looksById_of_not_isPath hpath)

/-- The entry of a build in the directory `p`. -/
def entryRequest (request : String) : ResolveData := .new "/p" request [.entry]

/-- A neighbour, as the entry, stays relative and is looked for beside it. -/
theorem looksBelow_neighbour :
    beforeResolve plainLoader "/no.js" (entryRequest "./main") = .ok (entryRequest "./main") ∧
      LooksBelow (entryRequest "./main") := by
  have hstays : StaysRelative plainLoader (entryRequest "./main") :=
    ⟨by decide +kernel, by decide +kernel, by decide +kernel, none, rfl, by decide +kernel⟩
  obtain ⟨hleft, hiff, -⟩ := @looksBelow_iff_of_staysRelative _ "/no.js" _ hstays
  exact ⟨hleft, hiff.mpr (.inl (by decide +kernel))⟩

def twoIndexes : FileTree where
  files := [(["p", "index.js"], .empty), (["lib", "index.js"], .empty)]
  dirs := [["p"], ["lib"]]

/-- The directory itself stays relative too, but its index file is not found: without a base
directory the request fails, and with one it leads to the index file there. -/
theorem dot_not_below :
    beforeResolve plainLoader "/no.js" (entryRequest ".") = .ok (entryRequest ".") ∧
      findFile twoIndexes.fileSystem (FilePath.join "/p" ".") "." "/p" = .ok "/p/index.js" ∧
      (resolve {} twoIndexes.fileSystem (entryRequest ".") []).1 =
        .error ⟨".", "/p", "No alias or base directory for module id"⟩ ∧
      fileAfter ⟨[], some "/lib"⟩ twoIndexes.fileSystem [] (entryRequest ".") =
        some "/lib/index.js" := by
  decide +kernel

end Dojo
end AmdBundle
