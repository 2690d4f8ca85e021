import AmdBundle.Proofs.Walk.Offers

/-!
# AmdBundle.Proofs.Walk.References — the references of a file, against its literals

What a file asks for, by the host alone or with the loader's plugins, stands in the file: the
references are string literals of the program in their order, no literal is taken twice, and a
module may be missing exactly if the literal stands inside a `try` block of the innermost function
around it (`walk_refers`).
-/

namespace AmdBundle

/-- The host's table, with the plugins of a loader if there is one. -/
def DojoPlugin.hooks : Option DojoPlugin → HookTable
  | none => .standard
  | some plugin => plugin.applyToHooks .standard

namespace AmdPlugin

variable {parts : List AmdPlugin} {kind : DefineKind}

theorem exists_refers_walk (hparts : .handler ∈ parts) (identity : ModuleIdentity)
    (program : List Node) :
    ∃ after rest,
      FileState.walk (table parts kind) program { identity } = (.ok (), after) ∧
      (after.dependencies.filterMap Dependency.external?).Sublist
        (literalUsesOfNodes false program) ∧
      IsWithout (if after.loaderInjected then parts.findSome? loader? else none)
        after.dependencies rest ∧
      (rest.filterMap Dependency.request?).Sublist (literalsOfNodes program) := by
  obtain ⟨after, hwalk, -, -, more, rest, hmore, hrest, hrefers⟩ :
      ∃ after, FileState.walk (table parts kind) program { identity } = (.ok (), after) ∧ _ :=
    exists_gains_walk { identity } program hparts
  obtain rfl : after.dependencies = more := hmore
  refine ⟨after, rest, hwalk, ?_, hrest, ?_⟩
  · rw [hrest.filterMap_external?]
    exact hrefers.external
  · rw [← map_fst_literalUsesOfNodes false program]
    exact hrefers.request

theorem mem_of_findSome?_loader? {loader : String}
    (h : parts.findSome? loader? = some loader) : .interceptor loader ∈ parts := by
  obtain ⟨part, hpart, hloader⟩ := List.exists_of_findSome?_eq_some h
  cases part with
  | interceptor loaderRequest =>
    obtain rfl : loaderRequest = loader := Option.some.inj hloader
    exact hpart
  | _ => simp [loader?] at hloader

theorem mem_of_request?_walk (hparts : .handler ∈ parts) {identity : ModuleIdentity}
    {program : List Node} {dependency : Dependency} {request : String}
    (hdependency : dependency ∈
      (FileState.walk (table parts kind) program { identity }).2.dependencies)
    (hrequest : dependency.request? = some request) :
    request ∈ literalsOfNodes program ∨ .interceptor request ∈ parts := by
  obtain ⟨after, rest, hwalk, -, hrest, hrequests⟩ :
      ∃ after rest, FileState.walk (table parts kind) program { identity } = (.ok (), after) ∧ _ :=
    exists_refers_walk hparts identity program
  rw [hwalk] at hdependency
  rcases hrest.mem hdependency with ⟨loader, hloader, rfl⟩ | hmem
  · obtain ⟨-, hloader⟩ := Option.ite_none_right_eq_some.mp hloader
    obtain rfl : loader = request := Option.some.inj hrequest
    exact .inr (mem_of_findSome?_loader? hloader)
  · exact .inl (hrequests.subset (List.mem_filterMap.mpr ⟨dependency, hmem, hrequest⟩))

end AmdPlugin

theorem DojoPlugin.exists_hooks_eq (plugin? : Option DojoPlugin) :
    ∃ parts kind, .handler ∈ parts ∧ DojoPlugin.hooks plugin? = AmdPlugin.table parts kind := by
  cases plugin? with
  | none => exact ⟨[.handler], .standard, List.mem_cons_self, rfl⟩
  | some plugin => exact ⟨plugin.parts, .loader, plugin.handler_mem_parts, rfl⟩

/-- **References.**  A walk over a file succeeds, by the host alone or with the loader's plugins.
The modules elsewhere that its lists of ids name, each with whether it may be missing, are literals
of the program in their order, each with whether it stands inside a `try` block.  So are the
requests of all its dependencies, once the loader's script is taken out, which is there exactly if
the file was marked. -/
theorem walk_refers (plugin? : Option DojoPlugin) (identity : ModuleIdentity)
    (program : List Node) :
    ∃ after rest,
      FileState.walk (DojoPlugin.hooks plugin?) program { identity } = (.ok (), after) ∧
      (after.dependencies.filterMap Dependency.external?).Sublist
        (literalUsesOfNodes false program) ∧
      IsWithout
        (if after.loaderInjected then plugin?.map fun plugin => plugin.options.loaderRequest
          else none)
        after.dependencies rest ∧
      (rest.filterMap Dependency.request?).Sublist (literalsOfNodes program) := by
  cases plugin? with
  | none =>
    have hmem : AmdPlugin.handler ∈ [AmdPlugin.handler] := List.mem_cons_self
    exact AmdPlugin.exists_refers_walk hmem identity program
  | some plugin => exact AmdPlugin.exists_refers_walk plugin.handler_mem_parts identity program

/-- A list inside a `try` block, one in a function inside that block, and a handler. -/
example : literalUsesOfNodes false
    [.tryCatch
      [.expr <| .call 1 {} "require" [.array {} [.str {} "a"],
        .function {} ["a"] [.expr <| .call 0 {} "require" [.array {} [.str {} "b"]]]]]
      [.expr <| .str {} "c"]] =
    [("a", true), ("b", false), ("c", false)] := rfl

end AmdBundle
