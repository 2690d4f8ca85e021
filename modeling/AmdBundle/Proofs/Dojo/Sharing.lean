import AmdBundle.FileSystem.Tree
import AmdBundle.Proofs.Dojo.Identity
import AmdBundle.Proofs.Resolver.Place

/-!
# AmdBundle.Proofs.Dojo.Sharing — when one absolute id is one file

Two references under one absolute id share a module before either is resolved, so they should lead
to one file, whatever directories they are made from.  `sharedFile_iff` says when they do: behind a
loader the path part can stay relative although the id does not begin with a dot, and then one id
is two files (`textFiles_differ`).
-/

namespace AmdBundle
namespace Dojo

open FileResolver

/-- An id of an AMD list, as a module names it that has an absolute id. -/
structure ItemReference where
  issuer : String
  /-- The identifier of the issuer's record. -/
  issuerRequest : String
  /-- The directory of the issuer. -/
  context : String
  request : String
  deriving DecidableEq, Repr

namespace ItemReference

def data (ref : ItemReference) : ResolveData :=
  .new ref.context ref.request [.amdItem ⟨some ref.issuer, ref.issuerRequest⟩]

end ItemReference

section Reference

variable {loader : Loader} {noModule : String} {ref : ItemReference} {final : ResolveData}
  {absMid : String}

theorem request_of_beforeResolve (hmark : AbsMid.Marker.detach ref.request = .ok none)
    (hfinal : beforeResolve loader noModule ref.data = .ok final)
    (hid : final.absMid = some absMid) :
    final.context = ref.context ∧
      (final.request = absMid ∧ absMid.toList.head? ≠ some '.' ∧
          ¬ (ref.request = PseudoModule.require.id ∨ ref.request = PseudoModule.module.id) ∨
        (ref.request = PseudoModule.require.id ∨ ref.request = PseudoModule.module.id) ∧
          absMid = ref.request ∧ final.request = noModule) := by
  have hmark : AbsMid.Marker.detach ref.data.request = .ok none := hmark
  rw [beforeResolve, hmark] at hfinal
  by_cases hpseudo : ref.request = PseudoModule.require.id ∨ ref.request = PseudoModule.module.id
  · obtain rfl : _ = final := Except.ok.inj ((if_pos hpseudo).symm.trans hfinal)
    exact ⟨rfl, .inr ⟨hpseudo, (Option.some.inj hid).symm, rfl⟩⟩
  · obtain rfl : readdress ref.data _ = final := Except.ok.inj ((if_neg hpseudo).symm.trans hfinal)
    unfold readdress at hid ⊢
    split at hid
    · exact absurd hid (by simp [ItemReference.data, ResolveData.new])
    · rename_i hplain
      rw [if_neg hplain]
      obtain rfl := Option.some.inj hid
      exact ⟨rfl, .inl ⟨rfl, by simpa using hplain, hpseudo⟩⟩

theorem isPlainName_of_pseudo {id : String}
    (h : id = PseudoModule.require.id ∨ id = PseudoModule.module.id) : IsPlainName id := by
  rcases h with rfl | rfl <;> constructor <;> decide

theorem specifier_of_pseudo {id : String}
    (h : id = PseudoModule.require.id ∨ id = PseudoModule.module.id) :
    (RequestParts.ofRequest id).specifier = id := by
  rcases h with rfl | rfl <;> decide +kernel

end Reference

section Pair

variable {loader : Loader} {noModule : String} {a b : ItemReference} {dataA dataB : ResolveData}
  {absMid : String}

/-- Where requests under one id are looked for at one place by every resolver, they have one path
part. -/
theorem pathPart_eq (hmarkA : AbsMid.Marker.detach a.request = .ok none)
    (hmarkB : AbsMid.Marker.detach b.request = .ok none)
    (hA : beforeResolve loader noModule a.data = .ok dataA)
    (hB : beforeResolve loader noModule b.data = .ok dataB)
    (hidA : dataA.absMid = some absMid) (hidB : dataB.absMid = some absMid)
    (hplace : ∀ files : FileResolver, files.place? dataA = files.place? dataB) :
    pathPart dataA = pathPart dataB := by
  obtain ⟨-, hrequestA⟩ := request_of_beforeResolve hmarkA hA hidA
  obtain ⟨-, hrequestB⟩ := request_of_beforeResolve hmarkB hB hidB
  have hpart : ∀ {data : ResolveData} {request : String}, data.request = request →
      pathPart data = (RequestParts.ofRequest request).specifier := by
    rintro data request rfl
    rfl
  rcases hrequestA with ⟨hownA, -, -⟩ | ⟨hpseudoA, rfl, hstandA⟩ <;>
    rcases hrequestB with ⟨hownB, -, -⟩ | ⟨hpseudoB, hsame, hstandB⟩
  case inl.inl => rw [hpart hownA, hpart hownB]
  case inr.inr => rw [hpart hstandA, hpart hstandB]
  case inl.inr =>
    -- the id of a pseudo-module, found elsewhere: the stand-in would have to be called the same
    have hpseudo := hsame ▸ hpseudoB
    have hname : pathPart dataA = absMid := (hpart hownA).trans (specifier_of_pseudo hpseudo)
    rw [hname, pathPart_eq_of_place? (isPlainName_of_pseudo hpseudo) hname hplace]
  case inr.inl =>
    have hname : pathPart dataB = a.request := (hpart hownB).trans (specifier_of_pseudo hpseudoA)
    rw [hname, pathPart_eq_of_place? (isPlainName_of_pseudo hpseudoA) hname fun files =>
      (hplace files).symm]

/-- **Sharing.**  Two references under one absolute id lead to one file, or fail both, with every
resolver, file system and earlier requests, exactly if the requests that are left of them have one
path part, and this is not taken against the directory or leads to one location from both. -/
theorem sharedFile_iff (hmarkA : AbsMid.Marker.detach a.request = .ok none)
    (hmarkB : AbsMid.Marker.detach b.request = .ok none)
    (hA : beforeResolve loader noModule a.data = .ok dataA)
    (hB : beforeResolve loader noModule b.data = .ok dataB)
    (hidA : dataA.absMid = some absMid) (hidB : dataB.absMid = some absMid) :
    (∀ (files : FileResolver) (fs : FileSystem) (earlierA earlierB : List ResolveData),
        files.fileAfter fs earlierA dataA = files.fileAfter fs earlierB dataB) ↔
      pathPart dataA = pathPart dataB ∧
        (isDotted (pathPart dataA) = true →
          Location.ofText (FilePath.join a.context (pathPart dataA)) =
            Location.ofText (FilePath.join b.context (pathPart dataA))) := by
  obtain ⟨hcontextA, -⟩ := request_of_beforeResolve hmarkA hA hidA
  obtain ⟨hcontextB, -⟩ := request_of_beforeResolve hmarkB hB hidB
  rw [← hcontextA, ← hcontextB]
  constructor
  · intro hfile
    have hplace : ∀ files : FileResolver, files.place? dataA = files.place? dataB := fun files =>
      place?_eq_of_fileAfter fun fs => hfile files fs [] []
    have hpart := pathPart_eq hmarkA hmarkB hA hB hidA hidB hplace
    refine ⟨hpart, fun hdotted => ?_⟩
    have hne : pathPart dataA ≠ "" := by
      intro hempty
      rw [hempty] at hdotted
      exact absurd hdotted (by decide)
    exact ofText_join_eq_of_place? hpart hdotted hne (hplace {})
  · rintro ⟨hpart, hdir⟩ files fs earlierA earlierB
    exact fileAfter_congr hpart hdir earlierA earlierB

end Pair

/-! ### One id, two files -/

section TextFiles

/-- A text file of one name in each of two directories. -/
def textFiles : FileTree where
  files := [(["p", "data.js"], .empty), (["q", "data.js"], .empty)]
  dirs := [["p"], ["q"]]

/-- The text file beside it, as a module names it. -/
def textBeside (dir : String) : ItemReference :=
  ⟨dir ++ "/main", "/" ++ dir ++ "/main.js", "/" ++ dir, "text!./data.js"⟩

/-- What the adapter leaves of the reference. -/
def textRequest (dir : String) : ResolveData :=
  { context := "/" ++ dir
    request := "text!./data.js"
    dependencies := [.amdItem ⟨some (dir ++ "/main"), "/" ++ dir ++ "/main.js"⟩]
    absMid := some "text!./data.js"
    rawRequest := some "text!./data.js" }

theorem beforeResolve_textBeside_p :
    beforeResolve plainLoader "/no.js" (textBeside "p").data = .ok (textRequest "p") := by
  decide +kernel

theorem beforeResolve_textBeside_q :
    beforeResolve plainLoader "/no.js" (textBeside "q").data = .ok (textRequest "q") := by
  decide +kernel

/-- The id of both requests is one, and the files are two. -/
theorem textFiles_differ :
    beforeResolve plainLoader "/no.js" (textBeside "p").data = .ok (textRequest "p") ∧
      beforeResolve plainLoader "/no.js" (textBeside "q").data = .ok (textRequest "q") ∧
      (textRequest "p").absMid = (textRequest "q").absMid ∧
      fileAfter {} textFiles.fileSystem [] (textRequest "p") = some "/p/data.js" ∧
      fileAfter {} textFiles.fileSystem [] (textRequest "q") = some "/q/data.js" :=
  ⟨beforeResolve_textBeside_p, beforeResolve_textBeside_q, rfl, by decide +kernel,
    by decide +kernel⟩

/-- No resolver and file system need be looked at to see that the two references do not share a
file. -/
theorem sharedFile_iff_textFiles :
    ¬ ∀ (files : FileResolver) (fs : FileSystem) (earlierA earlierB : List ResolveData),
      files.fileAfter fs earlierA (textRequest "p") =
        files.fileAfter fs earlierB (textRequest "q") := by
  have hmark : ∀ dir, AbsMid.Marker.detach (textBeside dir).request = .ok none := by
    intro dir
    show AbsMid.Marker.detach "text!./data.js" = .ok none
    decide +kernel
  rw [sharedFile_iff (hmark "p") (hmark "q") beforeResolve_textBeside_p
    beforeResolve_textBeside_q rfl rfl]
  decide +kernel

end TextFiles

end Dojo
end AmdBundle
