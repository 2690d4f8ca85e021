import AmdBundle.Proofs.Factory.Places

/-!
# AmdBundle.Proofs.Factory.Locality — what one creation may change

Whatever plugins and resolver a factory has, a creation that fails leaves the graph as it was, and
one that gives a place adds at most the module at this place.  Of the modules that were there, no
other is touched, and this one gets at most the absolute id that the request was resolved under
(`createFrom_onePlace`).
-/

namespace AmdBundle
namespace Factory

variable {σ : Type} {factory : Factory σ} {data : ResolveData} {work after : Workspace σ}
  {graph : ModuleGraph} {idx i : Nat} {record : ModuleRecord}

/-- A module that is there stays where it is, and reaching one under an id is seen only there and
only if the id is new to it. -/
theorem get?_reached_cases (absMid? : Option String) (h : graph.get? i = some record) :
    (Factory.reached graph idx absMid?).get? i = some record ∨
      i = idx ∧ ∃ absMid, absMid? = some absMid ∧ record.answersTo absMid = false ∧
        (Factory.reached graph idx absMid?).get? i = some (record.withAbsMid absMid) := by
  cases absMid? with
  | none => exact .inl h
  | some absMid =>
    have hget : (graph.addAlias idx absMid).2.get? i = _ := ModuleGraph.get?_addAlias absMid i
    rw [h, Option.map_some] at hget
    by_cases hi : idx = i
    · rw [if_pos hi, ModuleRecord.reachedUnder] at hget
      cases hans : record.answersTo absMid with
      | true =>
        rw [hans, if_pos rfl] at hget
        exact .inl hget
      | false =>
        rw [hans, if_neg Bool.false_ne_true] at hget
        exact .inr ⟨hi.symm, absMid, rfl, hans, hget⟩
    · rw [if_neg hi] at hget
      exact .inl hget

theorem built_reached (h : graph.Built) (idx : Nat) (absMid : Option String) :
    (Factory.reached graph idx absMid).Built := by
  cases absMid with
  | none => exact h
  | some absMid => exact h.addAlias idx absMid

theorem Created.built {graph' : ModuleGraph} (h : factory.Created data graph idx graph')
    (hgraph : graph.Built) : graph'.Built := by
  cases h with
  | known => exact hgraph
  | reached => exact built_reached hgraph idx _
  | made => exact hgraph.add _

theorem get?_of_createFrom (h : factory.createFrom data work = (.ok idx, after))
    (hrecord : work.graph.get? i = some record) :
    after.graph.get? i = some record ∨
      i = idx ∧ ∃ final resolved absMid, beforeResolve factory.plugins data = .ok final ∧
        factory.resolver final work.resolver = (.ok resolved, after.resolver) ∧
        resolved.absMid = some absMid ∧ record.answersTo absMid = false ∧
        after.graph.get? i = some (record.withAbsMid absMid) := by
  obtain ⟨final, hbefore, ⟨absMid, -, -, rfl⟩ | ⟨-, resolved, hresolved, hplace⟩⟩ :=
    resolved_of_ok h
  · exact .inl hrecord
  · rcases place_eq_ok hplace with ⟨-, hgraph⟩ | ⟨-, added, -, -, hgraph⟩
    · rw [hgraph]
      refine (get?_reached_cases resolved.absMid hrecord).imp_right ?_
      rintro ⟨hi, absMid, hmid, hans, hget⟩
      exact ⟨hi, final, resolved, absMid, hbefore, hresolved, hmid, hans, hget⟩
    · have hlt := ModuleGraph.lt_size_of_get? hrecord
      rw [hgraph, ModuleGraph.get?_add, if_neg (Nat.ne_of_lt hlt)]
      exact .inl hrecord

/-- **One place.**  A creation that fails leaves the graph as it was.  One that succeeds gives the
place of a module, which is the only one that may have been added; every other module is what it
was, and so is this one but for the absolute id that the request was resolved under: a module that
did not answer to it gets it, as its own if it has none and else as one more alias. -/
theorem createFrom_onePlace (factory : Factory σ) (data : ResolveData) (work : Workspace σ)
    (h : work.graph.Built) :
    (∀ error after, factory.createFrom data work = (.error error, after) →
      after.graph = work.graph) ∧
    ∀ idx after, factory.createFrom data work = (.ok idx, after) →
      after.graph.Built ∧ idx < after.graph.size ∧
      (after.graph.size = work.graph.size ∨
        after.graph.size = work.graph.size + 1 ∧ idx = work.graph.size) ∧
      ∀ i record, work.graph.get? i = some record →
        after.graph.get? i = some record ∨
          i = idx ∧ ∃ final resolved absMid, beforeResolve factory.plugins data = .ok final ∧
            factory.resolver final work.resolver = (.ok resolved, after.resolver) ∧
            resolved.absMid = some absMid ∧ record.answersTo absMid = false ∧
            after.graph.get? i = some (record.withAbsMid absMid) := by
  refine ⟨fun error after herror => graph_eq_of_error herror, fun idx after hok => ?_⟩
  obtain ⟨final, -, hcreated⟩ := created_of_ok hok
  have hplace : idx < after.graph.size ∧
      (after.graph.size = work.graph.size ∨
        after.graph.size = work.graph.size + 1 ∧ idx = work.graph.size) := by
    rcases hcreated.place h.inRange with ⟨hlt, hsize⟩ | ⟨hidx, hsize⟩
    · exact ⟨hsize ▸ hlt, .inl hsize⟩
    · exact ⟨by omega, .inr ⟨hsize, hidx⟩⟩
  exact ⟨hcreated.built h, hplace.1, hplace.2, fun i record hrecord =>
    get?_of_createFrom hok hrecord⟩

/-! ### A second name -/

/-- A module with an absolute id, and a script without one. -/
def namedAndUnnamed : ModuleGraph :=
  (((ModuleGraph.add {} { request := "/a.js" }).2.addAlias 0 "pkg/a").2.add
    { request := "/b.js" }).2

/-- A factory whose plugin finds the first module for every request, under the request as its
absolute id. -/
def nicknaming : Factory Unit :=
  (Factory.new fun _ state => (.ok { resource := "" }, state)).addPlugin
    { name := "nickname"
      wrapResolver := fun _ data state =>
        (.ok { request := "/a.js", resource := "", absMid := some data.request }, state) }

/-- How a request for the first module ends. -/
def nicknamed : Except Error Nat × Workspace Unit :=
  nicknaming.createFrom (.new "" "a" []) ⟨namedAndUnnamed, ()⟩

/-- The module found gets one more alias, and the other stays as it is. -/
theorem createFrom_onePlace_nickname :
    namedAndUnnamed.Built ∧ nicknamed.1 = .ok 0 ∧ nicknamed.2.graph.Built ∧
      0 < nicknamed.2.graph.size ∧
      nicknamed.2.graph.get? 0 =
        some { request := "/a.js", absMid := some "pkg/a", absMidAliases := ["a"] } ∧
      nicknamed.2.graph.get? 1 = some { request := "/b.js" } := by
  have hbuilt : namedAndUnnamed.Built := ((ModuleGraph.Built.empty.add _).addAlias 0 _).add _
  have hok : nicknamed.1 = .ok 0 := by decide
  obtain ⟨hafter, hlt, -, hkept⟩ := (createFrom_onePlace nicknaming (.new "" "a" [])
    ⟨namedAndUnnamed, ()⟩ hbuilt).2 0 nicknamed.2 (Prod.ext hok rfl)
  refine ⟨hbuilt, hok, hafter, hlt, ?_, ?_⟩
  · rcases hkept 0 { request := "/a.js", absMid := some "pkg/a" } (by decide) with
      hsame | ⟨-, final, resolved, absMid, hbefore, hresolved, hmid, -, hget⟩
    · exact absurd hsame (by decide)
    · obtain rfl := Except.ok.inj hbefore
      obtain rfl := Except.ok.inj (Prod.mk.inj hresolved).1
      obtain rfl := Option.some.inj hmid
      exact hget
  · rcases hkept 1 { request := "/b.js" } (by decide) with hsame | ⟨hidx, -⟩
    · exact hsame
    · exact absurd hidx (by decide)

end Factory
end AmdBundle
