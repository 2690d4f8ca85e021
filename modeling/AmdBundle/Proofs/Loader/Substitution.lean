import AmdBundle.Proofs.Loader.Normalize
import Mathlib

/-!
# AmdBundle.Proofs.Loader.Substitution — aliases in the place of ids

An alias is applied to an id that is neither verbatim nor relative and has been through the map and
the packages (`aliasable?`), and of the aliases that match it the first with the longest match is
applied (`IsFirstLongest`, `exists_isFirstLongest`).  The aliases applied on the way from an id to
its absolute form (`substitutions`) lead from one to the other step by step (`Normalizes.leadsTo`).
They end where no alias matches any more, where the id is not one for aliases, or after sixteen of
them (`toAbsMid_fixed_or_bound`).
-/

namespace AmdBundle

/-! ### The longest of a list, the first one of several -/

section Longest

variable {α : Type}

/-- Keeps the longer one of two, the earlier one if they are equally long. -/
def longer (best : Option (Nat × α)) (found : Nat × α) : Option (Nat × α) :=
  match best with
  | some longest => if found.1 ≤ longest.1 then best else some found
  | none => some found

theorem foldl_longer_eq_none_iff {found : List (Nat × α)} :
    found.foldl longer none = none ↔ found = [] := by
  induction found using List.reverseRecOn with
  | nil => simp
  | append_singleton found last ih =>
    rw [List.foldl_concat]
    unfold longer
    split
    · split <;> simp_all
    · simp

/-- The one that is kept is longer than all before it and no shorter than any behind it. -/
theorem exists_of_foldl_longer {found : List (Nat × α)} {best : Nat × α}
    (h : found.foldl longer none = some best) :
    ∃ before behind, found = before ++ best :: behind ∧ (∀ other ∈ before, other.1 < best.1) ∧
      ∀ other ∈ behind, other.1 ≤ best.1 := by
  induction found using List.reverseRecOn generalizing best with
  | nil => simp at h
  | append_singleton found last ih =>
    rw [List.foldl_concat] at h
    cases hbest : found.foldl longer none with
    | none =>
      rw [hbest] at h
      obtain rfl : last = best := Option.some.inj h
      obtain rfl := foldl_longer_eq_none_iff.mp hbest
      exact ⟨[], [], rfl, by simp, by simp⟩
    | some longest =>
      obtain ⟨before, behind, rfl, hbefore, hbehind⟩ := ih hbest
      rw [hbest] at h
      unfold longer at h
      dsimp only at h
      by_cases hle : last.1 ≤ longest.1
      · rw [if_pos hle] at h
        obtain rfl := Option.some.inj h
        refine ⟨before, behind ++ [last], by simp, hbefore, ?_⟩
        intro other hother
        rcases List.mem_append.mp hother with hmem | hlast
        · exact hbehind other hmem
        · rw [List.mem_singleton.mp hlast]
          exact hle
      · -- what was kept so far gives way, and all that was no longer than it is shorter now
        rw [if_neg hle] at h
        obtain rfl := Option.some.inj h
        refine ⟨before ++ longest :: behind, [], by simp, ?_, by simp⟩
        intro other hother
        rcases List.mem_append.mp hother with hmem | hmem
        · have := hbefore other hmem
          omega
        · rcases List.mem_cons.mp hmem with rfl | hmem
          · omega
          · have := hbehind other hmem
            omega

end Longest

theorem forall₂_of_mapM {α β ε : Type} {f : α → Except ε β} {xs : List α} {ys : List β}
    (h : xs.mapM f = .ok ys) : List.Forall₂ (fun x y => f x = .ok y) xs ys := by
  induction xs generalizing ys with
  | nil =>
    obtain rfl := Except.ok.inj h
    exact .nil
  | cons x xs ih =>
    rw [List.mapM_cons] at h
    cases hx : f x with
    | error error => simp [hx, bind, Except.bind] at h
    | ok y =>
      cases hrest : xs.mapM f with
      | error error => simp [hx, hrest, bind, Except.bind] at h
      | ok rest =>
        obtain rfl : y :: rest = ys := by
          simpa [hx, hrest, bind, Except.bind, pure, Except.pure] using h
        exact .cons hx (ih hrest)

namespace ConfiguredLoader

open ModuleId Text

variable {loader : ConfiguredLoader} {depth : Nat} {id current result : String}
  {reference : Option String}

/-! ### The alias that is applied -/

/-- The alias has the longest match in the id, and the first one of that length. -/
def IsFirstLongest (aliases : List Alias) (id : String) (entry : Alias) : Prop :=
  ∃ before behind length, aliases = before ++ entry :: behind ∧
    entry.pattern.matchLength? id = some length ∧
    (∀ other ∈ before, ∀ found, other.pattern.matchLength? id = some found → found < length) ∧
    ∀ other ∈ behind, ∀ found, other.pattern.matchLength? id = some found → found ≤ length

/-- The aliases that match, with the lengths of their matches. -/
def matching (aliases : List Alias) (id : String) : List (Nat × String) :=
  aliases.filterMap fun entry => (entry.pattern.matchLength? id).map (·, entry.replacement)

theorem matchAlias?_eq (loader : ConfiguredLoader) (id : String) :
    loader.matchAlias? id = ((matching loader.aliases id).foldl longer none).map Prod.snd := by
  unfold matchAlias?
  dsimp only
  congr 2
  funext best found
  cases best <;> rfl

theorem matchAlias?_eq_none_iff :
    loader.matchAlias? id = none ↔
      ∀ entry ∈ loader.aliases, entry.pattern.matchLength? id = none := by
  rw [matchAlias?_eq, Option.map_eq_none_iff, foldl_longer_eq_none_iff, matching,
    List.filterMap_eq_nil_iff]
  simp only [Option.map_eq_none_iff]

theorem mem_matching {aliases : List Alias} {entry : Alias} (hentry : entry ∈ aliases) {length : Nat}
    (hlength : entry.pattern.matchLength? id = some length) :
    (length, entry.replacement) ∈ matching aliases id :=
  List.mem_filterMap.mpr ⟨entry, hentry, by rw [hlength, Option.map_some]⟩

theorem exists_isFirstLongest {replacement : String}
    (h : loader.matchAlias? id = some replacement) :
    ∃ entry, IsFirstLongest loader.aliases id entry ∧ entry.replacement = replacement := by
  rw [matchAlias?_eq, Option.map_eq_some_iff] at h
  obtain ⟨best, hbest, rfl⟩ := h
  obtain ⟨before, behind, hfound, hbefore, hbehind⟩ := exists_of_foldl_longer hbest
  obtain ⟨earlier, rest, haliases, rfl, hrest⟩ := List.filterMap_eq_append_iff.mp hfound
  obtain ⟨silent, entry, later, rfl, hsilent, hentry, rfl⟩ := List.filterMap_eq_cons_iff.mp hrest
  obtain ⟨length, hlength, rfl⟩ := Option.map_eq_some_iff.mp hentry
  refine ⟨entry, ⟨earlier ++ silent, later, length, by simpa using haliases, hlength, ?_, ?_⟩, rfl⟩
  · intro other hother found hmatch
    rcases List.mem_append.mp hother with hmem | hmem
    · exact hbefore _ (mem_matching hmem hmatch)
    · have hnone := hsilent other hmem
      rw [hmatch] at hnone
      exact absurd hnone (by simp)
  · intro other hother found hmatch
    exact hbehind _ (mem_matching hother hmatch)

/-! ### The aliases applied on the way -/

/-- The id that aliases are looked up for, if an id comes to that: made absolute, and through the
map and the packages. -/
def aliasable? (loader : ConfiguredLoader) (id : String) (reference : Option String) :
    Option String :=
  if isVerbatim id then none
  else
    match absolutePath? id reference with
    | none => none
    | some path => if isRelative path then none else some (loader.mapped path reference)

/-- The form of an id that aliases are not looked up for. -/
def aliasFree (id : String) (reference : Option String) : String :=
  if isVerbatim id then id else (absolutePath? id reference).getD id

theorem verbatim_or_relative_of_aliasable? (h : loader.aliasable? id reference = none) :
    isVerbatim (aliasFree id reference) = true ∨ isRelative (aliasFree id reference) = true := by
  unfold aliasable? at h
  unfold aliasFree
  by_cases hverbatim : isVerbatim id = true
  · rw [if_pos hverbatim]
    exact .inl hverbatim
  · rw [if_neg hverbatim] at h ⊢
    cases hpath : absolutePath? id reference with
    | none =>
      -- only a relative id has no path
      have hrelative : isRelative id = true := by
        by_contra hnot
        simp [absolutePath?, hnot] at hpath
      exact .inr hrelative
    | some path =>
      rw [hpath] at h
      by_cases hrelative : isRelative path = true
      · exact .inr hrelative
      · simp [hrelative] at h

/-- An alias applied on the way: the id that it was applied to, and what it put in its place. -/
structure Substitution where
  id : String
  replacement : String
  deriving DecidableEq, Repr

/-- The aliases applied, at most so many, on the way from an id to its absolute form. -/
def substitutions (loader : ConfiguredLoader) :
    Nat → String → Option String → List Substitution
  | 0, _, _ => []
  | depth + 1, id, reference =>
    match loader.aliasable? id reference with
    | none => []
    | some current =>
      match loader.matchAlias? current with
      | none => []
      | some replacement => ⟨current, replacement⟩ :: loader.substitutions depth replacement none

/-- What was put in the place of the id is the replacement of the first alias with the longest match
in it. -/
def Substitution.IsDue (loader : ConfiguredLoader) (applied : Substitution) : Prop :=
  ∃ entry, IsFirstLongest loader.aliases applied.id entry ∧
    entry.replacement = applied.replacement

/-- The aliases, applied one after the other, lead from an id to a result: each is applied to what
the id comes to, and its replacement starts over, without a referring module. -/
inductive LeadsTo (loader : ConfiguredLoader) :
    String → Option String → List Substitution → String → Prop
  /-- The id does not come to the aliases. -/
  | apart {id : String} {reference : Option String} (hid : loader.aliasable? id reference = none) :
      LeadsTo loader id reference [] (aliasFree id reference)
  /-- No alias is applied to what the id comes to. -/
  | settled {id current : String} {reference : Option String}
      (hid : loader.aliasable? id reference = some current) :
      LeadsTo loader id reference [] current
  /-- With one alias and then others. -/
  | next {id : String} {reference : Option String} {applied : Substitution}
      {rest : List Substitution} {result : String}
      (hid : loader.aliasable? id reference = some applied.id) (hdue : applied.IsDue loader)
      (hrest : LeadsTo loader applied.replacement none rest result) :
      LeadsTo loader id reference (applied :: rest) result

theorem Normalizes.cases_aliasable? (h : loader.Normalizes depth id reference result) :
    (loader.aliasable? id reference = none ∧ result = aliasFree id reference) ∨
      (loader.aliasable? id reference = some result ∧
        (depth = 0 ∨ loader.matchAlias? result = none)) ∨
      ∃ before current replacement, depth = before + 1 ∧
        loader.aliasable? id reference = some current ∧
        loader.matchAlias? current = some replacement ∧
        loader.Normalizes before replacement none result := by
  cases h with
  | verbatim hverbatim => exact .inl (by simp [aliasable?, aliasFree, hverbatim])
  | unplaced hverbatim hpath => exact .inl (by simp [aliasable?, aliasFree, hverbatim, hpath])
  | escaped hverbatim hpath hrelative =>
    exact .inl (by simp [aliasable?, aliasFree, hverbatim, hpath, hrelative])
  | settled hverbatim hpath hrelative hend =>
    exact .inr (.inl ⟨by simp [aliasable?, hverbatim, hpath, hrelative], hend⟩)
  | replaced hverbatim hpath hrelative halias hrest =>
    refine .inr (.inr ⟨_, _, _, rfl, ?_, halias, hrest⟩)
    simp [aliasable?, hverbatim, hpath, hrelative]

theorem substitutions_eq_nil
    (h : ∀ current, loader.aliasable? id reference = some current →
      depth = 0 ∨ loader.matchAlias? current = none) :
    loader.substitutions depth id reference = [] := by
  cases depth with
  | zero => rfl
  | succ depth =>
    rw [substitutions]
    cases hid : loader.aliasable? id reference with
    | none => rfl
    | some current =>
      have hnone := (h current hid).resolve_left (Nat.succ_ne_zero depth)
      simp [hnone]

theorem substitutions_succ {replacement : String}
    (hid : loader.aliasable? id reference = some current)
    (halias : loader.matchAlias? current = some replacement) :
    loader.substitutions (depth + 1) id reference =
      ⟨current, replacement⟩ :: loader.substitutions depth replacement none := by
  rw [substitutions, hid]
  simp [halias]

/-- The aliases applied are those that lead to the absolute form. -/
theorem Normalizes.leadsTo (h : loader.Normalizes depth id reference result) :
    loader.LeadsTo id reference (loader.substitutions depth id reference) result := by
  induction depth generalizing id reference with
  | zero =>
    obtain ⟨hid, rfl⟩ | ⟨hid, hend⟩ | ⟨before, -, -, hdepth, -⟩ := h.cases_aliasable?
    · exact .apart hid
    · exact .settled hid
    · simp at hdepth
  | succ depth ih =>
    obtain ⟨hid, rfl⟩ | ⟨hid, hend⟩ | ⟨before, current, replacement, hdepth, hid, halias, hrest⟩ :=
      h.cases_aliasable?
    · rw [substitutions_eq_nil (by simp [hid])]
      exact .apart hid
    · rw [substitutions_eq_nil fun current hcurrent =>
        Option.some.inj (hid.symm.trans hcurrent) ▸ hend]
      exact .settled hid
    · obtain rfl := Nat.succ.inj hdepth
      rw [substitutions_succ hid halias]
      exact .next hid (exists_isFirstLongest halias) (ih hrest)

theorem length_substitutions_le (loader : ConfiguredLoader) (depth : Nat) (id : String)
    (reference : Option String) :
    (loader.substitutions depth id reference).length ≤ depth := by
  induction depth generalizing id reference with
  | zero => exact Nat.le_refl 0
  | succ depth ih =>
    rw [substitutions]
    cases loader.aliasable? id reference with
    | none => exact Nat.zero_le _
    | some current =>
      dsimp only
      cases loader.matchAlias? current with
      | none => exact Nat.zero_le _
      | some replacement => exact Nat.succ_le_succ (ih replacement .none)

/-- There is no alias to apply to the id: it is verbatim or relative, or none matches it. -/
def IsFixed (loader : ConfiguredLoader) (id : String) : Prop :=
  isVerbatim id = true ∨ isRelative id = true ∨
    ∀ entry ∈ loader.aliases, entry.pattern.matchLength? id = none

/-- With fewer aliases than are allowed there is none left to apply. -/
theorem Normalizes.isFixed_or_length_eq (h : loader.Normalizes depth id reference result) :
    loader.IsFixed result ∨ (loader.substitutions depth id reference).length = depth := by
  induction depth generalizing id reference with
  | zero => exact .inr rfl
  | succ depth ih =>
    obtain ⟨hid, rfl⟩ | ⟨hid, hend⟩ | ⟨before, current, replacement, hdepth, hid, halias, hrest⟩ :=
      h.cases_aliasable?
    · rcases verbatim_or_relative_of_aliasable? hid with hverbatim | hrelative
      · exact .inl (.inl hverbatim)
      · exact .inl (.inr (.inl hrelative))
    · have hnone := hend.resolve_left (Nat.succ_ne_zero depth)
      exact .inl (.inr (.inr (matchAlias?_eq_none_iff.mp hnone)))
    · obtain rfl := Nat.succ.inj hdepth
      rw [substitutions_succ hid halias, List.length_cons]
      exact (ih hrest).imp_right (congrArg Nat.succ)

/-- The aliases of a loader are those of its configuration, in its order. -/
theorem forall₂_aliases {config : LoaderConfig} (h : ofConfig config = .ok loader) :
    List.Forall₂ (fun pair entry => aliasOf pair = .ok entry) config.aliases loader.aliases := by
  unfold ofConfig at h
  cases haliases : config.aliases.mapM aliasOf with
  | error error => simp [haliases, bind, Except.bind] at h
  | ok aliases =>
    obtain rfl : ⟨config, aliases⟩ = loader := by
      simpa [haliases, bind, Except.bind, pure, Except.pure] using h
    exact forall₂_of_mapM haliases

/-- **Aliases run out, or sixteen are applied.**  The aliases applied on the way lead from an id to
its absolute form, each of them the first of those with the longest match in what the id has come to
(`LeadsTo.next`, `Substitution.IsDue`).  They are sixteen at the most; if they are fewer, then the
absolute form begins with a slash, has a colon in it, ends in `.js`, is relative, or has no match of
an alias in it.  A loader has the aliases of its configuration in their order. -/
theorem toAbsMid_fixed_or_bound (loader : ConfiguredLoader) (id : String)
    (reference : Option String) :
    let applied := loader.substitutions maxAliasDepth id reference
    let result := loader.toAbsMid id reference
    loader.LeadsTo id reference applied result ∧ applied.length ≤ 16 ∧
      (startsWith result "/" = true ∨ hasChar ':' result = true ∨ endsWith result ".js" = true ∨
        isRelative result = true ∨
        (∀ entry ∈ loader.aliases, entry.pattern.matchLength? result = none) ∨
        applied.length = 16) ∧
      ∀ config, ofConfig config = .ok loader →
        List.Forall₂ (fun pair entry => aliasOf pair = .ok entry) config.aliases loader.aliases := by
  have hway := normalizes loader maxAliasDepth id reference
  refine ⟨hway.leadsTo, length_substitutions_le loader maxAliasDepth id reference, ?_,
    fun config hconfig => forall₂_aliases hconfig⟩
  rcases hway.isFixed_or_length_eq with hfixed | hlength
  · rcases hfixed with hverbatim | hrelative | hnone
    · rw [isVerbatim, Bool.or_eq_true, Bool.or_eq_true, or_assoc] at hverbatim
      rcases hverbatim with hslash | hcolon | hscript
      · exact .inl hslash
      · exact .inr (.inl hcolon)
      · exact .inr (.inr (.inl hscript))
    · exact .inr (.inr (.inr (.inl hrelative)))
    · exact .inr (.inr (.inr (.inr (.inl hnone))))
  · exact .inr (.inr (.inr (.inr (.inr hlength))))

def wordAlias (word replacement : String) : Alias :=
  ⟨(Regex.sequence (word.toList.map .char)).machine, replacement⟩

/-- Aliases of which one has a longer match than another, two have equally long ones, and the last
one gives what it was applied to. -/
def renamed : ConfiguredLoader :=
  ⟨{}, [wordAlias "ui" "old", wordAlias "dojo/ui" "core/text", wordAlias "core" "lib/view",
    wordAlias "text" "text"]⟩

theorem substitutions_renamed_ui :
    renamed.substitutions maxAliasDepth "./ui" (some "dojo/main") =
      [⟨"dojo/ui", "core/text"⟩, ⟨"core/text", "lib/view"⟩] := by
  have hfirst : renamed.matchAlias? "dojo/ui" = some "core/text" := by cbv
  have hsecond : renamed.matchAlias? "core/text" = some "lib/view" := by cbv
  have hlast : renamed.matchAlias? "lib/view" = none := by cbv
  have hview : renamed.aliasable? "lib/view" none = some "lib/view" := by decide
  rw [maxAliasDepth, substitutions_succ (by decide) hfirst, substitutions_succ (by decide) hsecond,
    substitutions_eq_nil fun current hcurrent =>
      .inr (Option.some.inj (hview.symm.trans hcurrent) ▸ hlast)]

theorem substitutions_renamed_text (depth : Nat) :
    renamed.substitutions depth "text" none = List.replicate depth ⟨"text", "text"⟩ := by
  have halias : renamed.matchAlias? "text" = some "text" := by cbv
  induction depth with
  | zero => rfl
  | succ depth ih => rw [substitutions_succ (by decide) halias, ih, List.replicate_succ]

/-- In `dojo/ui` the second alias has the longest match, in `core/text` the third is the first of
two, and there is no match in `lib/view`; the last alias is applied sixteen times. -/
theorem toAbsMid_fixed_or_bound_renamed :
    renamed.LeadsTo "./ui" (some "dojo/main")
        [⟨"dojo/ui", "core/text"⟩, ⟨"core/text", "lib/view"⟩] "lib/view" ∧
      renamed.toAbsMid "./ui" (some "dojo/main") = "lib/view" ∧
      renamed.LeadsTo "text" none (List.replicate 16 ⟨"text", "text"⟩)
        (renamed.toAbsMid "text" none) := by
  obtain ⟨hlead, -⟩ := toAbsMid_fixed_or_bound renamed "./ui" (some "dojo/main")
  obtain ⟨hround, -⟩ := toAbsMid_fixed_or_bound renamed "text" none
  rw [substitutions_renamed_ui] at hlead
  rw [substitutions_renamed_text] at hround
  have hresult : renamed.toAbsMid "./ui" (some "dojo/main") = "lib/view" := by
    have hview : renamed.aliasable? "lib/view" none = some "lib/view" := by decide
    generalize renamed.toAbsMid "./ui" (some "dojo/main") = result at hlead
    cases hlead with
    | next _ _ hlead =>
      cases hlead with
      | next _ _ hlead =>
        cases hlead with
        | apart hid => simp [hview] at hid
        | settled hid => exact Option.some.inj (hid.symm.trans hview)
  exact ⟨hresult ▸ hlead, hresult, hround⟩

end ConfiguredLoader
end AmdBundle
