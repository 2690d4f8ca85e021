import AmdBundle.Text.Split

/-!
# AmdBundle.ModuleId — module ids as segments between slashes

* `isRelative`: an id is relative to the module that names it if it begins with a dot.
* `compactPath` cancels `.` and `..` segments; a backslash counts as a slash, and a `..` that has
  nothing left to cancel stays.
* `siblingPath` is the id that a relative one means beside another module.
* `coveredBy?` matches an id against a table key at a segment boundary.
-/

namespace AmdBundle
namespace ModuleId

open Text

/-- Whether an id is relative to the module that names it. -/
def isRelative (id : String) : Bool :=
  id.toList.head? == some '.'

/-- One step of the cancellation.  The segments kept so far come last one first. -/
def pushSegment (kept : List (List Char)) (segment : List Char) : List (List Char) :=
  if segment = ['.'] then kept
  else if segment = ['.', '.'] then
    match kept with
    | last :: rest => if last = ['.', '.'] then segment :: kept else rest
    | [] => [segment]
  else segment :: kept

/-- The segments that are left when `.` and `..` are cancelled. -/
def compactSegments (segments : List (List Char)) : List (List Char) :=
  (segments.foldl pushSegment []).reverse

/-- The path with `.` and `..` segments cancelled. -/
def compactPath (path : String) : String :=
  let slashed := path.toList.map fun c => if c = '\\' then '/' else c
  String.ofList (join '/' (compactSegments (splitOn '/' slashed)))

/-- The id that `id` means beside the module `reference`. -/
def siblingPath (reference id : String) : String :=
  compactPath (reference ++ "/../" ++ id)

/-- What follows `key` in `id`, if `key` equals `id` or ends in it before a slash. -/
def coveredBy? (key id : String) : Option String :=
  match key.toList.isPrefixOf? id.toList with
  | some [] => some ""
  | some ('/' :: rest) => some (String.ofList ('/' :: rest))
  | _ => none

theorem coveredBy?_eq_some_iff {key id rest : String} :
    coveredBy? key id = some rest ↔
      id = key ++ rest ∧ (rest = "" ∨ rest.toList.head? = some '/') := by
  rw [coveredBy?, ← String.toList_inj, String.toList_append]
  constructor
  · intro h
    split at h
    · rename_i hp
      obtain rfl := Option.some.inj h
      simpa using isPrefixOf?_eq_some_iff.mp hp
    · rename_i tail hp
      obtain rfl := Option.some.inj h
      simpa using isPrefixOf?_eq_some_iff.mp hp
    · exact absurd h (by simp)
  · rintro ⟨hid, hrest⟩
    rw [isPrefixOf?_eq_some_iff.mpr hid]
    rcases hrest with rfl | hrest
    · rfl
    · cases hr : rest.toList with
      | nil => simp [hr] at hrest
      | cons c tail =>
        rw [hr, List.head?_cons, Option.some.injEq] at hrest
        subst hrest
        obtain rfl : rest = String.ofList ('/' :: tail) := by rw [← hr, String.ofList_toList]
        simp only

/-- The entry whose key covers `id` and is the longest to do so; of keys of one length the last. -/
def longestCover {α : Type} (entries : List (String × α)) (id : String) : Option (String × α) :=
  entries.foldl
    (fun best entry =>
      if (coveredBy? entry.1 id).isSome then
        match best with
        | some found => if found.1.utf8ByteSize ≤ entry.1.utf8ByteSize then some entry else best
        | none => some entry
      else best)
    none

end ModuleId
end AmdBundle
