import AmdBundle.Build
import AmdBundle.Dojo.Plugin
import AmdBundle.FileSystem.Tree
import AmdBundle.Proofs.AbsMid.Anchored
import AmdBundle.Proofs.Dojo.Origin
import AmdBundle.Proofs.Walk.References
import Mathlib.Data.List.Infix
import Mathlib.Data.Set.Finite.Lattice

/-!
# AmdBundle.Proofs.Build.Site — builds of modules for the loader

A `Site` is what a build with the loader's plugins is made of: finitely many files with a program
each, and the settings.  The requests of such a build are finitely many (`Site.requests`), and so
are the identifiers that can come of requests which mean the same from everywhere
(`Site.finite_settled`).

A module strays (`Build.Strays`) if it has more in its absolute id than a path, and names a module
relative to it.
-/

namespace AmdBundle

open AbsMid Text

/-! ### Finite file systems -/

/-- A file system that answers with finitely many paths. -/
structure FiniteFileSystem extends FileSystem where
  /-- The paths that it answers with. -/
  answers : List String
  mem_answers : ∀ asked path, canonical asked = .ok path → path ∈ answers

theorem FiniteFileSystem.finite_paths (fs : FiniteFileSystem) : fs.toFileSystem.paths.Finite := by
  refine (List.finite_toSet fs.answers).subset ?_
  rintro path ⟨asked, hpath⟩
  exact fs.mem_answers asked path hpath

namespace FileTree

/-- The names that can be come to: those of files and directories, and those on the way to them. -/
def places (tree : FileTree) : List (List String) :=
  [] :: (tree.files.map Prod.fst ++ tree.dirs).flatMap List.inits

theorem mem_places_of_isAt {tree : FileTree} {names : List String}
    (h : (tree.isFileAt names || tree.isDirAt names) = true) : names ∈ tree.places := by
  rw [Bool.or_eq_true] at h
  rcases h with hfile | hdir
  · obtain ⟨file, hmem, hnames⟩ := List.any_eq_true.mp hfile
    obtain rfl : file.1 = names := by simpa using hnames
    refine List.mem_cons_of_mem _ (List.mem_flatMap.mpr ⟨file.1, ?_, ?_⟩)
    · exact List.mem_append.mpr (.inl (List.mem_map.mpr ⟨file, hmem, rfl⟩))
    · exact (List.mem_inits _ _).mpr List.prefix_rfl
  · rw [isDirAt, Bool.or_eq_true] at hdir
    rcases hdir with hroot | hdir
    · obtain rfl := List.isEmpty_iff.mp hroot
      exact List.mem_cons_self
    · refine List.mem_cons_of_mem _ (List.mem_flatMap.mpr ⟨names, ?_, ?_⟩)
      · exact List.mem_append.mpr (.inr (List.contains_iff_mem.mp hdir))
      · exact (List.mem_inits _ _).mpr List.prefix_rfl

theorem dropLast_mem_places {tree : FileTree} {names : List String} (h : names ∈ tree.places) :
    names.dropLast ∈ tree.places := by
  rcases List.mem_cons.mp h with rfl | h
  · exact List.mem_cons_self
  · obtain ⟨whole, hwhole, hnames⟩ := List.mem_flatMap.mp h
    refine List.mem_cons_of_mem _ (List.mem_flatMap.mpr ⟨whole, hwhole, ?_⟩)
    have hprefix : names <+: whole := (List.mem_inits _ _).mp hnames
    exact (List.mem_inits _ _).mpr ((List.dropLast_prefix names).trans hprefix)

theorem mem_places_of_follow {tree : FileTree} {steps : List Step} {names found : List String}
    (hnames : names ∈ tree.places) (h : tree.follow names steps = some found) :
    found ∈ tree.places := by
  induction steps generalizing names with
  | nil => exact Option.some.inj h ▸ hnames
  | cons step steps ih =>
    unfold follow at h
    split at h
    · split at h
      · exact ih hnames h
      · exact ih (dropLast_mem_places hnames) h
      · dsimp only at h
        split at h
        · rename_i hat
          exact ih (mem_places_of_isAt hat) h
        · simp at h
    · simp at h

def finite (tree : FileTree) : FiniteFileSystem where
  toFileSystem := tree.fileSystem
  answers := tree.places.map pathOf
  mem_answers asked path h := by
    dsimp only [fileSystem, FileSystem.ofLocations] at h
    split at h
    · rename_i names hnames
      refine List.mem_map.mpr ⟨names, ?_, Except.ok.inj h⟩
      unfold find? at hnames
      split at hnames
      · split at hnames
        · rename_i found hfound
          split at hnames
          · obtain rfl := Option.some.inj hnames
            exact mem_places_of_follow List.mem_cons_self hfound
          · simp at hnames
        · simp at hnames
      · simp at hnames
    · simp at h

end FileTree

/-! ### Sites -/

/-- What a build of modules for the loader is made of. -/
structure Site where
  cwd : String
  files : FileResolver
  disk : FiniteFileSystem
  options : PluginOptions
  loader : ConfiguredLoader
  /-- The program of a file. -/
  program : String → List Node

namespace Site

variable (site : Site) (entry : String)

def plugin : DojoPlugin := ⟨site.options, site.loader.toLoader⟩

/-- The build: the host's table and factory with the plugin added. -/
def build : Build FileResolver.Cache where
  cwd := site.cwd
  hooks := site.plugin.applyToHooks .standard
  factory := site.plugin.applyToFactory (.new (site.files.resolve site.disk.toFileSystem))
  source record := .ok (site.program record.resource)

theorem hooks_build : site.build.hooks =
    AmdPlugin.table [.handler, .interceptor site.options.loaderRequest,
      .binder site.options.requireIdent] .loader := rfl

theorem factory_build : site.build.factory =
    Dojo.pipeline site.loader.toLoader site.options.noModuleRequest
      (site.files.resolve site.disk.toFileSystem) := rfl

/-! ### The requests of a site -/

/-- The requests that can come up: the entry, the loader's script, and the string literals of the
programs. -/
def requests : List String :=
  entry :: site.options.loaderRequest ::
    site.disk.answers.flatMap fun path => literalsOfNodes (site.program path)

/-- What the adapter may ask for in their place without making them absolute. -/
def own : Set String :=
  {bare | bare ∈ (site.requests entry).flatMap (Dojo.ownRequests site.options.noModuleRequest)}

/-- The absolute ids of those that name nothing relatively, whoever makes them. -/
def anchored : Set String :=
  ⋃ request ∈ (site.requests entry).filter fun request => !namesRelatively request,
    Set.range (resolve site.loader.toLoader request)

/-- The paths, and the identifiers made of a request that the adapter asks for by itself or of an
absolute id that is the same from everywhere. -/
def settled : Set String :=
  site.disk.toFileSystem.paths ∪
    identifiersOf (site.own entry ∪ site.anchored entry) site.disk.toFileSystem.paths

theorem finite_settled : (site.settled entry).Finite := by
  have hown : (site.own entry).Finite := List.finite_toSet _
  have hanchored : (site.anchored entry).Finite := by
    refine Set.Finite.biUnion (List.finite_toSet _) fun request hrequest => ?_
    have hplain := (List.mem_filter.mp hrequest).2
    exact finite_range_resolve site.loader (by simpa using hplain)
  exact site.disk.finite_paths.union
    (finite_identifiersOf (hown.union hanchored) site.disk.finite_paths)

variable {site entry}

theorem mem_own {request bare : String} (hrequest : request ∈ site.requests entry)
    (hbare : bare ∈ Dojo.ownRequests site.options.noModuleRequest request) :
    bare ∈ site.own entry :=
  List.mem_flatMap.mpr ⟨request, hrequest, hbare⟩

theorem mem_anchored {request : String} (hrequest : request ∈ site.requests entry)
    (h : namesRelatively request = false) (issuer : Option String) :
    resolve site.loader.toLoader request issuer ∈ site.anchored entry := by
  refine Set.mem_biUnion (x := request) ?_ ⟨issuer, rfl⟩
  exact List.mem_filter.mpr ⟨hrequest, by rw [h]; rfl⟩

end Site

/-! ### What a module asks for -/

/-- The file has the request in a list of ids. -/
def FileOutput.RefersTo (output : FileOutput) (request : String) : Prop :=
  ∃ ref range loc optional, .item ⟨.external ref, range, loc, optional⟩ ∈ output.dependencies ∧
    ref.request = request

namespace Build

variable {σ : Type}

/-- Only an entry of a list of ids is made absolute, and against the module that has it. -/
theorem refersTo_of_issuerContext? {output : FileOutput} {context : String} {data : ResolveData}
    {issuer : Option String} (hdata : data ∈ output.dependencies.filterMap (requestData? context))
    (hissuer : Dojo.issuerContext? data = some issuer) : output.RefersTo data.request := by
  obtain ⟨dependency, hdependency, hsome⟩ := List.mem_filterMap.mp hdata
  obtain ⟨request, hrequest, rfl⟩ := Option.map_eq_some_iff.mp hsome
  cases dependency with
  | item dependency =>
    obtain ⟨item, range, loc, optional⟩ := dependency
    cases item with
    | external ref =>
      exact ⟨ref, range, loc, optional, hdependency, Option.some.inj hrequest⟩
    | _ => simp [Dependency.request?] at hrequest
  | require text => simp [Dojo.issuerContext?, ResolveData.new, pendingFor] at hissuer
  | _ => simp [Dependency.request?] at hrequest

/-- A module that has more in its absolute id than a path, and that names another one relative to
it. -/
def Strays (build : Build σ) (record : ModuleRecord) : Prop :=
  ∃ absMid output request, record.absMid = some absMid ∧
    (hasChar '!' absMid || hasChar '?' absMid) = true ∧
    build.walkModule record = .ok output ∧ output.RefersTo request ∧ namesRelatively request = true

/-- Such a module is the next one to be handled. -/
def StraysNext (build : Build σ) (state : BuildState σ) : Prop :=
  ∃ idx queue record, state.queue = idx :: queue ∧ state.work.graph.get? idx = some record ∧
    build.Strays record

end Build

namespace Site

variable {site : Site}

theorem output_of_walkModule {record : ModuleRecord} {output : FileOutput}
    (h : site.build.walkModule record = .ok output) :
    output = (FileState.walk site.build.hooks (site.program record.resource)
      { identity := ⟨record.absMid, record.request⟩ }).2.output := by
  unfold Build.walkModule at h
  split at h
  · simp at h
  · rename_i nodes hnodes
    obtain rfl : site.program record.resource = nodes := Except.ok.inj hnodes
    dsimp only at h
    split at h
    · simp at h
    · rename_i state hstate
      rw [hstate]
      exact (Except.ok.inj h).symm

theorem mem_requests (entry : String) {record : ModuleRecord} {output : FileOutput}
    {data : ResolveData} (hresource : record.resource ∈ site.disk.toFileSystem.paths)
    (hwalk : site.build.walkModule record = .ok output)
    (hdata : data ∈ output.dependencies.filterMap (Build.requestData? record.context)) :
    ∃ request : PlainRequest, data = request.data ∧ request.request ∈ site.requests entry := by
  obtain ⟨dependency, hdependency, hsome⟩ := List.mem_filterMap.mp hdata
  obtain ⟨request, hrequest, rfl⟩ := Option.map_eq_some_iff.mp hsome
  refine ⟨⟨record.context, request, [Build.pendingFor dependency]⟩, rfl, ?_⟩
  obtain ⟨location, hlocation⟩ := hresource
  have hanswer := site.disk.mem_answers location record.resource hlocation
  rw [output_of_walkModule hwalk, hooks_build] at hdependency
  rcases AmdPlugin.mem_of_request?_walk List.mem_cons_self hdependency hrequest with
    hliteral | hloader
  · refine List.mem_cons_of_mem _ (List.mem_cons_of_mem _ ?_)
    exact List.mem_flatMap.mpr ⟨record.resource, hanswer, hliteral⟩
  · obtain rfl : request = site.options.loaderRequest := by simpa using hloader
    exact List.mem_cons_of_mem _ List.mem_cons_self

end Site
end AmdBundle
