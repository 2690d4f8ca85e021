import AmdBundle.Proofs.Resolver.Place

/-!
# AmdBundle.Proofs.Resolver.Transparency — answers that do not depend on what came before

Requests are resolved one after the other over one cache (`resolveAll`).  A request leaves under its
directory and its path part what it found there, if it found something, and leaves everything else
as it was (`Sound.lookup?_snd_resolve`).  So in the end a file is kept for just those path parts that
were asked for and found, and every request got the answer that it gets where nothing is kept
(`resolveAll_transparent`).
-/

namespace AmdBundle
namespace FileResolver

open PathKind

variable {π : Type} [PathKind π] {files : FileResolver π} {fs : FileSystem π} {cache : Cache π}
  {data : ResolveData π} {specifier specifier' : String} {context context' : π}

/-! ### What is kept for a directory and a path part -/

/-- The two stand for one key of the cache. -/
def SameKey (context : π) (specifier : String) (context' : π) (specifier' : String) : Prop :=
  (location context).same (location context') = true ∧ specifier = specifier'

instance : Decidable (SameKey context specifier context' specifier') :=
  inferInstanceAs (Decidable (_ ∧ _))

theorem lookup?_congr (h : SameKey context specifier context' specifier') :
    lookup? cache context specifier = lookup? cache context' specifier' := by
  obtain ⟨hsame, rfl⟩ := h
  unfold lookup?
  simp only [Location.same_congr_right hsame]

theorem lookup?_cons (path : π) :
    lookup? (((context, specifier), path) :: cache) context' specifier' =
      if SameKey context specifier context' specifier' then some path
      else lookup? cache context' specifier' := by
  unfold lookup?
  by_cases hkey : SameKey context specifier context' specifier'
  · rw [if_pos hkey, List.find?_cons_of_pos (by simpa [SameKey] using hkey)]
    rfl
  · rw [if_neg hkey, List.find?_cons_of_neg (by simpa [SameKey] using hkey)]

theorem Sound.lookup?_snd_resolveResource (h : Sound files fs cache) {path : π} :
    lookup? (files.resolveResource fs specifier context cache).2 context' specifier' = some path ↔
      lookup? cache context' specifier' = some path ∨
        (SameKey context specifier context' specifier' ∧
          files.findResource fs specifier context = .ok path) := by
  rw [resolveResource]
  cases hkept : lookup? cache context specifier with
  | some kept =>
    refine ⟨.inl, ?_⟩
    rintro (hold | ⟨hkey, hfound⟩)
    · exact hold
    · -- what is kept already is what would be found
      have hsame := h.findResource_of_lookup? hkept
      rw [hfound] at hsame
      rw [← lookup?_congr hkey, hkept, Except.ok.inj hsame]
  | none =>
    cases hfound : files.findResource fs specifier context with
    | error error => simp
    | ok found =>
      show lookup? (((context, specifier), found) :: cache) context' specifier' = some path ↔ _
      rw [lookup?_cons]
      by_cases hkey : SameKey context specifier context' specifier'
      · have hnone : lookup? cache context' specifier' = none := by
          rw [← lookup?_congr hkey, hkept]
        simp [hkey, hnone]
      · simp [hkey]

/-- A path part leads to one file from the directories that are one for the cache. -/
theorem findResource_eq_ok_congr (h : (location context).same (location context') = true)
    {path : π} :
    files.findResource fs specifier context = .ok path ↔
      files.findResource fs specifier context' = .ok path := by
  have htoOption : ∀ {found : Except ResolveError π},
      found = .ok path ↔ found.toOption = some path := by
    intro found
    cases found <;> simp [Except.toOption]
  rw [htoOption, htoOption, toOption_findResource_congr h]

/-- The request asks for the path part in the directory. -/
def AsksFor (data : ResolveData π) (context : π) (specifier : String) : Prop :=
  pathPart data ≠ "" ∧ SameKey data.context (pathPart data) context specifier

theorem cache_resolve (files : FileResolver π) (fs : FileSystem π) (data : ResolveData π)
    (cache : Cache π) :
    (files.resolve fs data cache).2 =
      if pathPart data = "" then cache
      else (files.resolveResource fs (pathPart data) data.context cache).2 := by
  have hpart : (RequestParts.ofRequest data.request).specifier = pathPart data := rfl
  unfold resolve
  dsimp only
  rw [hpart]
  by_cases hempty : pathPart data = ""
  · rw [if_pos hempty, if_pos (by simpa using hempty)]
  · rw [if_neg hempty, if_neg (by simpa using hempty)]
    cases files.resolveResource fs (pathPart data) data.context cache with
    | mk found cache => cases found <;> rfl

/-- What is kept once a request has been resolved: what was kept, and what it found. -/
theorem Sound.lookup?_snd_resolve (h : Sound files fs cache) {path : π} :
    lookup? (files.resolve fs data cache).2 context specifier = some path ↔
      lookup? cache context specifier = some path ∨
        (AsksFor data context specifier ∧
          files.findResource fs specifier context = .ok path) := by
  rw [cache_resolve]
  by_cases hempty : pathPart data = ""
  · simp [hempty, AsksFor]
  · rw [if_neg hempty, h.lookup?_snd_resolveResource]
    refine or_congr_right ⟨?_, ?_⟩
    · rintro ⟨⟨hsame, rfl⟩, hfound⟩
      exact ⟨⟨hempty, hsame, rfl⟩, (findResource_eq_ok_congr hsame).mp hfound⟩
    · rintro ⟨⟨-, hsame, rfl⟩, hfound⟩
      exact ⟨⟨hsame, rfl⟩, (findResource_eq_ok_congr hsame).mpr hfound⟩

/-! ### One request after the other -/

/-- The answers to requests that are made one after the other, and the cache that they leave. -/
def resolveAll (files : FileResolver π) (fs : FileSystem π) :
    List (ResolveData π) → Cache π →
      List (Except ResolveError (ResolvedModule π)) × Cache π
  | [], cache => ([], cache)
  | data :: rest, cache =>
    let first := files.resolve fs data cache
    let others := resolveAll files fs rest first.2
    (first.1 :: others.1, others.2)

@[simp] theorem resolveAll_nil : files.resolveAll fs [] cache = ([], cache) := rfl

theorem resolveAll_cons (data : ResolveData π) (rest : List (ResolveData π)) :
    files.resolveAll fs (data :: rest) cache =
      ((files.resolve fs data cache).1 ::
        (files.resolveAll fs rest (files.resolve fs data cache).2).1,
        (files.resolveAll fs rest (files.resolve fs data cache).2).2) := rfl

theorem Sound.fst_resolve_eq_fresh (h : Sound files fs cache) (data : ResolveData π) :
    (files.resolve fs data cache).1 = (files.resolve fs data []).1 :=
  (h.fst_resolve data).trans (sound_nil.fst_resolve data).symm

/-- From a sound cache every request gets the answer that it gets where nothing is kept. -/
theorem Sound.fst_resolveAll (h : Sound files fs cache) (requests : List (ResolveData π)) :
    (files.resolveAll fs requests cache).1 =
      requests.map fun data => (files.resolve fs data []).1 := by
  induction requests generalizing cache with
  | nil => rfl
  | cons data rest ih =>
    rw [resolveAll_cons, List.map_cons, h.fst_resolve_eq_fresh, ih (h.snd_resolve data)]

theorem Sound.lookup?_snd_resolveAll (h : Sound files fs cache) (requests : List (ResolveData π))
    {path : π} :
    lookup? (files.resolveAll fs requests cache).2 context specifier = some path ↔
      lookup? cache context specifier = some path ∨
        ((∃ data ∈ requests, AsksFor data context specifier) ∧
          files.findResource fs specifier context = .ok path) := by
  induction requests generalizing cache with
  | nil => simp
  | cons data rest ih =>
    rw [resolveAll_cons, ih (h.snd_resolve data), h.lookup?_snd_resolve, or_assoc]
    refine or_congr_right ?_
    simp only [List.mem_cons, exists_eq_or_imp]
    rw [or_and_right]

/-- **The cache cannot be seen.**  Requests that are resolved one after the other, starting with
nothing kept, get the answers that each of them gets from a resolver that is asked nothing else.  A
file is kept exactly for the path parts that one of them asked for and that lead to a file. -/
theorem resolveAll_transparent (files : FileResolver π) (fs : FileSystem π)
    (requests : List (ResolveData π)) :
    (files.resolveAll fs requests []).1 =
        requests.map (fun data => (files.resolve fs data []).1) ∧
      ∀ context specifier path,
        lookup? (files.resolveAll fs requests []).2 context specifier = some path ↔
          (∃ data ∈ requests, AsksFor data context specifier) ∧
            files.findResource fs specifier context = .ok path := by
  refine ⟨sound_nil.fst_resolveAll requests, fun context specifier path => ?_⟩
  have hnothing : lookup? [] context specifier ≠ some path := by simp [lookup?]
  rw [sound_nil.lookup?_snd_resolveAll, or_iff_right hnothing]

end FileResolver
end AmdBundle
