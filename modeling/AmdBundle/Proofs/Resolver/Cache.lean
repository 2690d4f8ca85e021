import AmdBundle.Proofs.FilePath.Join
import AmdBundle.Resolver.Files

/-!
# AmdBundle.Proofs.Resolver.Cache — what is kept is what would be found

The resolver keeps what it found under the directory and the path part, and takes two spellings of a
directory to be one (`Location.same`).  A cache is `Sound` if every entry is what would be found
now; the empty cache is, and every request keeps it so (`Sound.snd_resolve`).  From a sound cache a
request gets the answer that is made of what would be found (`Sound.fst_resolve`).
-/

namespace AmdBundle
namespace FileResolver

open Text PathKind

variable {π : Type} [PathKind π] {files : FileResolver π} {fs : FileSystem π} {specifier : String}
  {context context' : π}

/-! ### What a path part leads to -/

section Found

theorem exists_of_isDotted (h : isDotted specifier = true) :
    ∃ dots rest, specifier = dots ++ "/" ++ rest ∧ dots ≠ "" ∧
      FilePath.isAbsolute dots = false := by
  rw [isDotted, Bool.or_eq_true] at h
  rcases h with h | h
  · obtain ⟨rest, hrest⟩ := List.isPrefixOf_iff_prefix.mp h
    refine ⟨".", String.ofList rest, ?_, by decide, by decide⟩
    rw [← String.toList_inj, ← hrest]
    simp
  · obtain ⟨rest, hrest⟩ := List.isPrefixOf_iff_prefix.mp h
    refine ⟨"..", String.ofList rest, ?_, by decide, by decide⟩
    rw [← String.toList_inj, ← hrest]
    simp

def firstFile (fs : FileSystem π) (paths : List π) : Option π :=
  (paths.find? fs.isFile).bind fun path => (fs.canonical path).toOption

theorem firstFile_congr {paths paths' : List π} (h : paths.map location = paths'.map location) :
    firstFile fs paths = firstFile fs paths' := by
  induction paths generalizing paths' with
  | nil =>
    rw [List.map_nil, eq_comm, List.map_eq_nil_iff] at h
    rw [h]
  | cons path paths ih =>
    cases paths' with
    | nil => simp at h
    | cons path' paths' =>
      rw [List.map_cons, List.map_cons, List.cons.injEq] at h
      obtain ⟨hfile, -, hcanonical⟩ := fs.ignoresSpelling path path' h.1
      have hrest := ih h.2
      unfold firstFile at hrest ⊢
      rw [List.find?_cons, List.find?_cons, hfile]
      cases fs.isFile path' with
      | true => exact congrArg Except.toOption hcanonical
      | false => exact hrest

theorem toOption_findFile (target : π) :
    (findFile fs target specifier context).toOption = firstFile fs (candidates fs target) := by
  rw [findFile, firstFile]
  cases (candidates fs target).find? fs.isFile with
  | none => rfl
  | some path =>
    rw [Option.bind_some]
    dsimp only
    cases fs.canonical path <;> rfl

theorem toOption_findResource :
    (files.findResource fs specifier context).toOption =
      (files.targetPath specifier context).toOption.bind fun target =>
        firstFile fs (candidates fs target) := by
  rw [findResource]
  cases files.targetPath specifier context with
  | error error => rfl
  | ok target => exact toOption_findFile target

theorem toOption_targetPath_of_not_isDotted (h : isDotted specifier = false)
    (context context' : π) :
    (files.targetPath specifier context).toOption =
      (files.targetPath specifier context').toOption := by
  rw [targetPath, targetPath, h, if_neg Bool.false_ne_true, if_neg Bool.false_ne_true]
  split
  · rfl
  · rw [idPath, idPath]
    cases ModuleId.longestCover files.aliases specifier with
    | some entry => rfl
    | none => cases files.baseDir <;> rfl

theorem targetPath_of_isDotted (h : isDotted specifier = true) :
    files.targetPath specifier context = .ok (join context specifier) := by
  rw [targetPath, if_pos h]

/-- Two spellings of a path, whatever is put behind the texts that are shown for them, have
candidates at one place each. -/
theorem map_location_candidates {target target' : π} (h : location target = location target')
    (happend : ∀ ext, Location.ofText (display target ++ ext) =
      Location.ofText (display target' ++ ext)) :
    (candidates fs target).map location = (candidates fs target').map location := by
  have hsame : (location target).same (location target') = true := h ▸ Location.same_self _
  have hindex : ∀ ext, location (join target ("index" ++ ext)) =
      location (join target' ("index" ++ ext)) := fun ext =>
    location_join hsame (FilePath.isAbsolute_append (by decide) (by decide) ext)
  have hext : ∀ ext, location (ofText (display target ++ ext) : π) =
      location (ofText (display target' ++ ext)) := fun ext => location_ofText (happend ext)
  obtain ⟨-, hdir, -⟩ := fs.ignoresSpelling target target' h
  rw [candidates, candidates, hdir]
  cases fs.isDir target' <;> simp [Function.comp_def, h, hext, hindex]

theorem toOption_findResource_of_not_isDotted (h : isDotted specifier = false) :
    (files.findResource fs specifier context).toOption =
      (files.findResource fs specifier context').toOption := by
  rw [toOption_findResource, toOption_findResource,
    toOption_targetPath_of_not_isDotted h context context']

theorem toOption_findResource_of_location_join (h : isDotted specifier = true)
    (hjoin : location (join context specifier) = location (join context' specifier)) :
    (files.findResource fs specifier context).toOption =
      (files.findResource fs specifier context').toOption := by
  obtain ⟨dots, rest, rfl, hdots, hrelative⟩ := exists_of_isDotted h
  have hne : dots ++ "/" ++ rest ≠ "" := by simp
  have hpath : FilePath.isAbsolute (dots ++ "/" ++ rest) = false := by
    rw [String.append_assoc]
    exact FilePath.isAbsolute_append hdots hrelative _
  have hshown := location_display hjoin
  rw [display_join, display_join] at hshown
  rw [toOption_findResource, toOption_findResource, targetPath_of_isDotted h,
    targetPath_of_isDotted h]
  refine firstFile_congr (map_location_candidates hjoin fun ext => ?_)
  rw [display_join, display_join, ← FilePath.join_append hne hpath,
    ← FilePath.join_append hne hpath]
  exact Location.ofText_join_append hdots hrelative hshown ext

theorem toOption_findResource_congr (h : (location context).same (location context') = true) :
    (files.findResource fs specifier context).toOption =
      (files.findResource fs specifier context').toOption := by
  cases hdotted : isDotted specifier with
  | false => exact toOption_findResource_of_not_isDotted hdotted
  | true =>
    refine toOption_findResource_of_location_join hdotted (location_join h ?_)
    obtain ⟨dots, rest, rfl, hdots, hrelative⟩ := exists_of_isDotted hdotted
    rw [String.append_assoc]
    exact FilePath.isAbsolute_append hdots hrelative _

end Found

/-! ### Sound caches -/

section Sound

variable {cache : Cache π} {data : ResolveData π}

/-- Every entry is what would be found. -/
def Sound (files : FileResolver π) (fs : FileSystem π) (cache : Cache π) : Prop :=
  ∀ entry ∈ cache, files.findResource fs entry.1.2 entry.1.1 = .ok entry.2

theorem sound_nil : Sound files fs [] := by
  intro entry hentry
  simp at hentry

theorem Sound.findResource_of_lookup? (h : Sound files fs cache) {path : π}
    (hpath : lookup? cache context specifier = some path) :
    files.findResource fs specifier context = .ok path := by
  obtain ⟨⟨⟨dir, part⟩, kept⟩, hfind, rfl⟩ := Option.map_eq_some_iff.mp hpath
  have hkey := List.find?_some hfind
  simp only [Bool.and_eq_true, beq_iff_eq] at hkey
  obtain ⟨hsame, rfl⟩ := hkey
  have hmem : ((dir, part), kept) ∈ cache := List.mem_of_find?_eq_some hfind
  have hkept : files.findResource fs part dir = .ok kept := h ((dir, part), kept) hmem
  have hcongr : (files.findResource fs part dir).toOption =
      (files.findResource fs part context).toOption := toOption_findResource_congr hsame
  rw [hkept] at hcongr
  cases hfound : files.findResource fs part context with
  | error error => simp [hfound, Except.toOption] at hcongr
  | ok path =>
    rw [hfound] at hcongr
    exact congrArg Except.ok (Option.some.inj hcongr).symm

theorem Sound.fst_resolveResource (h : Sound files fs cache) :
    (files.resolveResource fs specifier context cache).1 =
      files.findResource fs specifier context := by
  rw [resolveResource]
  cases hkept : lookup? cache context specifier with
  | some path => exact (h.findResource_of_lookup? hkept).symm
  | none => cases files.findResource fs specifier context <;> rfl

theorem Sound.snd_resolveResource (h : Sound files fs cache) :
    Sound files fs (files.resolveResource fs specifier context cache).2 := by
  rw [resolveResource]
  cases lookup? cache context specifier with
  | some path => exact h
  | none =>
    cases hfound : files.findResource fs specifier context with
    | error error => exact h
    | ok path =>
      intro entry hentry
      rcases List.mem_cons.mp hentry with rfl | hentry
      · exact hfound
      · exact h entry hentry

/-- What a request is resolved to, from what is found for its path part. -/
def answer (data : ResolveData π) (found : Except ResolveError π) :
    Except ResolveError (ResolvedModule π) :=
  let parts := RequestParts.ofRequest data.request
  if parts.specifier.isEmpty then .error ⟨data.request, display data.context, "Empty resource"⟩
  else
    match found with
    | .error error => .error error
    | .ok resource =>
      .ok {
        request := parts.identifier (display resource)
        userRequest := data.request
        rawRequest := data.rawRequest.getD data.request
        resource
        loaders := parts.loaders }

theorem answer_ok {parts : RequestParts} {resource : π}
    (hparts : RequestParts.ofRequest data.request = parts)
    (hne : parts.specifier.isEmpty = false) :
    answer data (.ok resource) = .ok {
      request := parts.identifier (display resource)
      userRequest := data.request
      rawRequest := data.rawRequest.getD data.request
      resource
      loaders := parts.loaders } := by
  unfold answer
  dsimp only
  rw [hparts, hne, if_neg Bool.false_ne_true]

theorem Sound.fst_resolve (h : Sound files fs cache) (data : ResolveData π) :
    (files.resolve fs data cache).1 =
      answer data (files.findResource fs (RequestParts.ofRequest data.request).specifier
        data.context) := by
  rw [← h.fst_resolveResource]
  unfold resolve answer
  dsimp only
  split
  · rfl
  · cases files.resolveResource fs (RequestParts.ofRequest data.request).specifier data.context
      cache with
    | mk found cache => cases found <;> rfl

theorem Sound.snd_resolve (h : Sound files fs cache) (data : ResolveData π) :
    Sound files fs (files.resolve fs data cache).2 := by
  have hkept : Sound files fs (files.resolveResource fs
      (RequestParts.ofRequest data.request).specifier data.context cache).2 := h.snd_resolveResource
  rw [resolve]
  split
  · exact h
  · revert hkept
    cases files.resolveResource fs (RequestParts.ofRequest data.request).specifier data.context
      cache with
    | mk found cache => cases found <;> exact id

/-- The cache after requests, from nothing kept. -/
def cacheAfter (files : FileResolver π) (fs : FileSystem π) (requests : List (ResolveData π)) :
    Cache π :=
  requests.foldl (fun cache data => (files.resolve fs data cache).2) []

theorem sound_cacheAfter (requests : List (ResolveData π)) :
    Sound files fs (files.cacheAfter fs requests) := by
  rw [cacheAfter, ← List.foldr_reverse]
  induction requests.reverse with
  | nil => exact sound_nil
  | cons data requests ih => exact ih.snd_resolve data

/-- The file for a request when others came before it; `none` where it fails. -/
def fileAfter (files : FileResolver π) (fs : FileSystem π) (earlier : List (ResolveData π))
    (data : ResolveData π) : Option π :=
  (files.resolve fs data (files.cacheAfter fs earlier)).1.toOption.map ResolvedModule.resource

theorem fileAfter_eq (earlier : List (ResolveData π)) (data : ResolveData π) :
    files.fileAfter fs earlier data =
      if (RequestParts.ofRequest data.request).specifier.isEmpty then none
      else (files.findResource fs (RequestParts.ofRequest data.request).specifier
        data.context).toOption := by
  rw [fileAfter, (sound_cacheAfter earlier).fst_resolve]
  unfold answer
  dsimp only
  split
  · rfl
  · cases files.findResource fs (RequestParts.ofRequest data.request).specifier data.context <;>
      rfl

end Sound

end FileResolver
end AmdBundle
