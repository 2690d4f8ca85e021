import AmdBundle.Proofs.Walk.AmdTable
import AmdBundle.Proofs.Walk.Calls
import AmdBundle.Proofs.Walk.Conduct
import AmdBundle.Proofs.Walk.Gains
import AmdBundle.Proofs.Walk.Wire

/-!
# AmdBundle.Proofs.Walk.Keeps — relations that every walk keeps

A `WalkOrder` is a relation between earlier and later states of a file that every small change by
the host's plugins keeps to.  A step `Keeps` the relation if it holds between the state it starts
from and the state it leaves, whether it succeeds or fails.  The steps that the host's plugins and
ordinary ones take keep it, and if the offers of `define` calls do then so do whole walks
(`keeps_walkNodes`).

What is said of failing steps is what makes this go through: a step that fails leaves a state too,
and what handles the failure starts from there.
-/

namespace AmdBundle

open Amd

/-- A relation that what the host's plugins change keeps to, for a walk that comes to calls of one
kind. -/
structure WalkOrder (calls : Call → Prop) (R : FileState → FileState → Prop) : Prop where
  refl (state : FileState) : R state state
  trans {state mid after : FileState} : R state mid → R mid after → R state after
  withTry {value : Bool} {state after : FileState} :
    R { state with inTry := value } after → R state { after with inTry := state.inTry }
  warn (state : FileState) (message : String) : R state (state.warn message)
  declare (state : FileState) (name : String) :
    R state { state with locals := (state.locals.add name).2 }
  item (state : FileState) (dependency : ItemDependency) :
    R state (state.record (.item dependency))
  array (state : FileState) (dependency : ArrayDependency) :
    R state (state.record (.array dependency))
  /-- An id that a call needs at once. -/
  need {call : Call} {id : String} (hcall : calls call) (hneed : call.need? = some id)
    (state : FileState) : R state (state.record (.require id))

/-- The step keeps to a relation, also if it fails. -/
def WalkM.Keeps {α : Type} (R : FileState → FileState → Prop) (x : WalkM α) : Prop :=
  ∀ state, R state (x.runFrom state).2

/-- What a host of a call walks and answers keeps to a relation. -/
structure HostKeeps (R : FileState → FileState → Prop) {call : Call} (host : CallHost call) :
    Prop where
  walk : ∀ e (h : call.Holds e), (host.walk e h.sizeOf_lt).Keeps R
  askArray : ∀ param ∈ call.args, ∀ slots named, (host.askArray param slots named).Keeps R
  askItem : ∀ param, call.Holds param → ∀ named, (host.askItem param named).Keeps R

variable {calls : Call → Prop} {R : FileState → FileState → Prop}

theorem mem_listDependencies {state : FileState} {ids : List String} {span : Span}
    {named : Option String} {render : Render} {dependency : Dependency}
    (h : dependency ∈ state.listDependencies ids span named render) :
    (∃ entry, dependency = .item entry) ∨ ∃ list, dependency = .array list := by
  rcases List.mem_append.mp h with hentry | hlist
  · obtain ⟨item, -, hitem⟩ := List.mem_filterMap.mp hentry
    cases item with
    | pseudo pseudo expression => exact absurd hitem (by simp [FileState.entryDependency?])
    | localModule entry => exact .inl ⟨_, (Option.some.inj hitem).symm⟩
    | external ref => exact .inl ⟨_, (Option.some.inj hitem).symm⟩
  · exact .inr ⟨_, List.mem_singleton.mp hlist⟩

namespace WalkOrder

variable (order : WalkOrder calls R)

include order

variable {α β : Type} {x : WalkM α}

theorem and {R' : FileState → FileState → Prop} (order' : WalkOrder calls R') :
    WalkOrder calls fun state after => R state after ∧ R' state after where
  refl state := ⟨order.refl state, order'.refl state⟩
  trans h h' := ⟨order.trans h.1 h'.1, order'.trans h.2 h'.2⟩
  withTry h := ⟨order.withTry h.1, order'.withTry h.2⟩
  warn state message := ⟨order.warn state message, order'.warn state message⟩
  declare state name := ⟨order.declare state name, order'.declare state name⟩
  item state dependency := ⟨order.item state dependency, order'.item state dependency⟩
  array state dependency := ⟨order.array state dependency, order'.array state dependency⟩
  need hcall hneed state := ⟨order.need hcall hneed state, order'.need hcall hneed state⟩

/-! ### Putting steps together -/

theorem pure (a : α) : (Pure.pure a : WalkM α).Keeps R := order.refl

theorem bind {k : α → WalkM β} (hx : x.Keeps R) (hk : ∀ a, (k a).Keeps R) : (x >>= k).Keeps R := by
  intro state
  have hstep := hx state
  rw [WalkM.runFrom_bind]
  rcases hrun : x.runFrom state with ⟨error | a, after⟩
  · rw [hrun] at hstep
    exact hstep
  · rw [hrun] at hstep
    exact order.trans hstep (hk a after)

theorem rescue {handle : PluginError → WalkM α} (hx : x.Keeps R)
    (hhandle : ∀ error, (handle error).Keeps R) : (tryCatch x handle).Keeps R := by
  intro state
  have hstep := hx state
  rw [WalkM.runFrom_tryCatch]
  rcases hrun : x.runFrom state with ⟨error | a, after⟩
  · rw [hrun] at hstep
    exact order.trans hstep (hhandle error after)
  · rw [hrun] at hstep
    exact hstep

theorem keeps_withTry (hx : x.Keeps R) (value : Bool) : (WalkM.withTry value x).Keeps R :=
  fun state => order.withTry (hx { state with inTry := value })

theorem forM {γ : Type} {xs : List γ} {f : γ → WalkM Unit} (h : ∀ x ∈ xs, (f x).Keeps R) :
    (xs.forM f).Keeps R := by
  induction xs with
  | nil => exact order.pure ()
  | cons x xs ih =>
    obtain ⟨hx, hxs⟩ := List.forall_mem_cons.mp h
    exact order.bind hx fun _ => ih hxs

theorem recordAll {more : List Dependency} (h : ∀ d ∈ more, ∀ state, R state (state.record d))
    (state : FileState) : R state { state with dependencies := state.dependencies ++ more } := by
  induction more generalizing state with
  | nil =>
    rw [List.append_nil]
    exact order.refl state
  | cons dependency more ih =>
    obtain ⟨hdependency, hmore⟩ := List.forall_mem_cons.mp h
    have hrest := ih hmore (state.record dependency)
    rw [FileState.record, List.append_assoc] at hrest
    exact order.trans (hdependency state) hrest

theorem warnAt (what : String) (place : UInt32) (problem : String) :
    (Amd.warnAt what place problem).Keeps R := fun state => order.warn state _

theorem declareName (name : Option String) : (Amd.declare name).Keeps R := by
  intro state
  cases name with
  | none => exact order.refl state
  | some name => exact order.declare state name

/-! ### Ordinary plugins -/

theorem ordinary {call : Call} {walk : Walker call} {records : Dependency → Prop}
    (hrecords : ∀ dependency, records dependency → ∀ state, R state (state.record dependency))
    (hwalk : ∀ e (h : call.Holds e), (walk e h.sizeOf_lt).Keeps R)
    (h : WalkM.Ordinary call walk records x) : x.Keeps R := by
  induction h with
  | pure a => exact order.pure a
  | bind _ _ hx hk => exact order.bind hx hk
  | look => exact order.refl
  | warn message => exact fun state => order.warn state message
  | record hdependency => exact hrecords _ hdependency
  | walk h => exact hwalk _ h
  | refuse error => exact order.refl
  | rescue _ _ hx hhandle => exact order.rescue hx hhandle

/-! ### Lists and ids -/

theorem claimArray (render : ModuleIdentity → Render) (param : Expr) (slots : Slots)
    (named : Option String) : (Amd.claimArray render param slots named).Keeps R := by
  cases hconst : param.evaluate.isConstArray with
  | false =>
    rw [claimArray_of_not hconst]
    exact order.pure _
  | true =>
    obtain ⟨ids, hids⟩ := exists_of_isConstArray hconst
    intro state
    rw [runFrom_claimArray hids, FileState.fst_addArray]
    refine order.recordAll (fun dependency hdependency state => ?_) state
    rcases mem_listDependencies hdependency with ⟨entry, rfl⟩ | ⟨list, rfl⟩
    · exact order.item state entry
    · exact order.array state list

theorem claimItem (render : ModuleIdentity → Render) (param : Expr) (named : Option String) :
    (Amd.claimItem render param named).Keeps R := by
  cases hstring : param.evaluate.isString with
  | false =>
    rw [claimItem_of_not hstring]
    exact order.pure _
  | true =>
    obtain ⟨id, hid⟩ := exists_of_isString hstring
    intro state
    rw [runFrom_claimItem hid]
    exact order.item state _

/-! ### What the handler does with a call -/

section Handler

variable {call : Call} {host : CallHost call} (keeps : HostKeeps R host)

include keeps

theorem processElement (named : Option String) {element : Expr} (h : call.Holds element) :
    (Amd.processElement host named element h.sizeOf_lt).Keeps R := by
  refine order.bind (keeps.askItem element h named) fun verdict => ?_
  cases verdict with
  | claim => exact order.pure ()
  | pass => exact order.bind (order.warnAt _ _ _) fun _ => keeps.walk element h

theorem processArray (list : Argument call.args) (slots : Slots) (named : Option String) :
    (Amd.processArray host list slots named).Keeps R := by
  refine order.bind (keeps.askArray list.1 list.2 slots named) fun answer => ?_
  obtain ⟨verdict, slots⟩ := answer
  cases verdict with
  | claim => exact order.pure slots
  | pass =>
    obtain ⟨e, he⟩ := list
    cases e with
    | array span elements =>
      exact order.bind (order.forM fun element _ =>
        order.processElement keeps named (.element he element.2)) fun _ => order.pure slots
    | _ => exact order.bind (order.warnAt _ _ _) fun _ => order.pure slots

theorem walkBody {k : Unit → WalkM β} (body : Option (Argument call.args))
    (hk : (k ()).Keeps R) :
    (match body with
      | some body => Amd.walkArgument host body >>= k
      | none => k ()).Keeps R := by
  cases body with
  | none => exact hk
  | some body => exact order.bind (keeps.walk body.1 (.argument body.2)) fun _ => hk

theorem callDefine (hdefine : ∀ dependency state, R state (state.record (.define dependency))) :
    (Amd.callDefine call host).Keeps R := by
  cases hargs : DefineArgs.ofArgs? call.args with
  | none =>
    rw [callDefine_of_none hargs]
    exact order.pure _
  | some args =>
    rw [callDefine_of_some hargs]
    refine order.bind ?_ fun _ => order.pure _
    obtain ⟨name, array, body⟩ := args
    refine order.bind (order.declareName name) fun localModule => ?_
    cases array with
    | none => exact order.walkBody keeps body (hdefine _)
    | some array =>
      refine order.bind (order.processArray keeps array _ name) fun slots => ?_
      exact order.walkBody keeps body (hdefine _)

theorem handleRequire (list : Argument call.args) (callbacks : List (Argument call.args)) :
    (Amd.handleRequire host list callbacks).Keeps R := by
  rw [Amd.handleRequire, WalkM.discard_eq]
  refine order.bind (order.bind (order.processArray keeps list _ none) fun _ => order.pure ())
    fun _ => ?_
  exact order.forM fun callback _ => keeps.walk callback.1 (.argument callback.2)

theorem callRequire (hcall : calls call) (hcallee : call.callee = "require") :
    (Amd.callRequire call host).Keeps R := by
  cases hargs : RequireArgs.ofArgs? call.args with
  | none =>
    rw [callRequire_of_none hargs]
    exact order.pure _
  | some args =>
    cases args with
    | now id =>
      rw [callRequire_of_now hargs]
      have hneed : call.need? = some id := Call.need?_of_now hcallee hargs
      exact order.bind (order.need hcall hneed) fun _ => order.pure _
    | list list callbacks =>
      rw [callRequire_of_list hargs]
      exact order.bind (order.handleRequire keeps list callbacks) fun _ => order.pure _

end Handler

/-! ### Tables -/

theorem ask {hook : Plugin → WalkM Verdict} {plugins : List Plugin}
    (h : ∀ plugin ∈ plugins, (hook plugin).Keeps R) : (HookTable.ask hook plugins).Keeps R := by
  induction plugins with
  | nil => exact order.pure _
  | cons plugin plugins ih =>
    obtain ⟨hplugin, hplugins⟩ := List.forall_mem_cons.mp h
    refine order.bind hplugin fun verdict => ?_
    cases verdict with
    | claim => exact order.pure _
    | pass => exact ih hplugins

theorem askWithSlots {hook : Plugin → Slots → WalkM (Verdict × Slots)} {plugins : List Plugin}
    (h : ∀ plugin ∈ plugins, ∀ slots, (hook plugin slots).Keeps R) (slots : Slots) :
    (HookTable.askWithSlots hook plugins slots).Keeps R := by
  induction plugins generalizing slots with
  | nil => exact order.pure _
  | cons plugin plugins ih =>
    obtain ⟨hplugin, hplugins⟩ := List.forall_mem_cons.mp h
    refine order.bind (hplugin slots) fun answer => ?_
    obtain ⟨verdict, slots⟩ := answer
    cases verdict with
    | claim => exact order.pure _
    | pass => exact ih hplugins slots

section Table

variable {loaders : String → Prop} {records : Dependency → Prop} {call : Call} {plugin : Plugin}
  (hrecords : ∀ dependency, records dependency → ∀ state, R state (state.record dependency))
  (hcall : calls call)

include hrecords hcall

/-- What a plugin does with a `define` call, from what the handler and interceptors do. -/
theorem callDefineHook (hplugin : IsWalkPlugin loaders calls records plugin)
    {host : CallHost call} (hwalk : ∀ e (h : call.Holds e), (host.walk e h.sizeOf_lt).Keeps R)
    (hhandler : plugin = Amd.handler → (Amd.callDefine call host).Keeps R)
    (hinterceptor : ∀ loader, loaders loader →
      ((Dojo.interceptor loader).callDefine call host).Keeps R) :
    (plugin.callDefine call host).Keeps R := by
  cases hplugin with
  | handler => exact hhandler rfl
  | interceptor hloader => exact hinterceptor _ hloader
  | binder requireIdent => exact order.pure _
  | ordinary hordinary =>
    exact order.ordinary hrecords hwalk (hordinary.callDefine call host hcall)

theorem callRequireHook (hplugin : IsWalkPlugin loaders calls records plugin)
    {host : CallHost call} (keeps : HostKeeps R host) (hcallee : call.callee = "require") :
    (plugin.callRequire call host).Keeps R := by
  cases hplugin with
  | handler => exact order.callRequire keeps hcall hcallee
  | interceptor hloader => exact order.pure _
  | binder requireIdent => exact order.pure _
  | ordinary hordinary =>
    exact order.ordinary hrecords keeps.walk (hordinary.callRequire call host hcall)

theorem hostKeeps {table : HookTable}
    (hplugins : ∀ plugin ∈ table.plugins, IsWalkPlugin loaders calls records plugin)
    {walk : Walker call} (hwalk : ∀ e (h : call.Holds e), (walk e h.sizeOf_lt).Keeps R)
    (again : WalkM Verdict) : HostKeeps R (table.host call walk again) where
  walk := hwalk
  askArray param hparam slots named := by
    refine order.askWithSlots (fun plugin hplugin slots => ?_) slots
    cases hplugins plugin hplugin with
    | handler => exact order.claimArray _ param slots named
    | interceptor hloader => exact order.pure _
    | binder requireIdent => exact order.claimArray _ param slots named
    | ordinary hordinary =>
      exact order.ordinary hrecords hwalk
        (hordinary.amdArray call walk param slots named hcall hparam)
  askItem param hparam named := by
    refine order.ask fun plugin hplugin => ?_
    cases hplugins plugin hplugin with
    | handler => exact order.claimItem _ param named
    | interceptor hloader => exact order.pure _
    | binder requireIdent => exact order.claimItem _ param named
    | ordinary hordinary =>
      exact order.ordinary hrecords hwalk (hordinary.amdItem call walk param named hcall hparam)

end Table

end WalkOrder

/-- What an interceptor does with a `define` call, from what the second round does with the marked
file. -/
theorem keeps_interceptor {base : HookTable} {call : Call} {walk : Walker call}
    {again : WalkM Verdict} {loader : String} (hrefl : ∀ state, R state state)
    (hagain : ∀ state, state.processing.contains call.id = false →
      R state ((again.runFrom (AmdPlugin.mark loader call.id state)).2.leave call.id)) :
    (AmdPlugin.defineHook base call walk again (Dojo.interceptor loader)).Keeps R := by
  intro state
  cases hmem : state.processing.contains call.id with
  | true =>
    rw [AmdPlugin.runFrom_defineHook, FileState.enter?, if_pos hmem]
    exact hrefl state
  | false =>
    rw [AmdPlugin.runFrom_defineHook_interceptor loader hmem]
    exact hagain state hmem

/-! ### Walks -/

theorem Call.Holds.mem_calls {call inner : Call} {e : Expr} (h : call.Holds e)
    (hinner : inner ∈ e.calls) : inner ∈ callsOfExprs call.args := by
  rw [callsOfExprs_eq, List.mem_flatMap]
  cases h with
  | argument h => exact ⟨e, h, hinner⟩
  | element hlist h =>
    refine ⟨_, hlist, ?_⟩
    rw [Expr.calls, callsOfExprs_eq, List.mem_flatMap]
    exact ⟨e, h, hinner⟩

/-- What is done with a call keeps to a relation if the walks inside the call do. -/
def Offer.KeepsTo (calls : Call → Prop) (R : FileState → FileState → Prop) (offer : Offer) : Prop :=
  ∀ (call : Call) (walk : Walker call), calls call →
    (∀ e (h : call.Holds e), (walk e h.sizeOf_lt).Keeps R) → (offer call walk).Keeps R

/-- Offers keep to the relation if what is done with `define` calls does. -/
theorem WalkOrder.offer {loaders : String → Prop} {records : Dependency → Prop} {table : HookTable}
    (order : WalkOrder calls R)
    (hrecords : ∀ dependency, records dependency → ∀ state, R state (state.record dependency))
    (hplugins : ∀ plugin ∈ table.plugins, IsWalkPlugin loaders calls records plugin)
    (hdefine : Offer.KeepsTo calls R table.callDefine) : Offer.KeepsTo calls R table.offer := by
  intro call walk hcall hwalk
  rw [HookTable.offer]
  split
  · exact hdefine call walk hcall hwalk
  · split
    · rename_i hrequire
      refine order.ask fun plugin hplugin => ?_
      exact order.callRequireHook hrecords hcall (hplugins plugin hplugin)
        (order.hostKeeps hrecords hcall hplugins hwalk _) hrequire
    · exact order.pure _

section Walk

variable {table : HookTable}

mutual

theorem keeps_walkNodes (order : WalkOrder calls R) (hoffer : Offer.KeepsTo calls R table.offer)
    (nodes : List Node) (hnodes : ∀ call ∈ callsOfNodes nodes, calls call) :
    (table.walkNodes nodes).Keeps R := by
  match nodes with
  | [] =>
    rw [HookTable.walkNodes]
    exact order.pure ()
  | .expr e :: rest =>
    rw [callsOfNodes, List.forall_mem_append] at hnodes
    rw [HookTable.walkNodes]
    exact order.bind (keeps_walkExpr order hoffer e hnodes.1) fun _ =>
      keeps_walkNodes order hoffer rest hnodes.2
  | .tryCatch block onError :: rest =>
    rw [callsOfNodes, List.forall_mem_append, List.forall_mem_append] at hnodes
    obtain ⟨⟨hblock, honError⟩, hrest⟩ := hnodes
    rw [HookTable.walkNodes]
    exact order.bind (order.keeps_withTry (keeps_walkNodes order hoffer block hblock) true)
      fun _ => order.bind (keeps_walkNodes order hoffer onError honError) fun _ =>
        keeps_walkNodes order hoffer rest hrest
termination_by sizeOf nodes

theorem keeps_walkExpr (order : WalkOrder calls R) (hoffer : Offer.KeepsTo calls R table.offer)
    (e : Expr) (he : ∀ call ∈ e.calls, calls call) : (table.walkExpr e).Keeps R := by
  match e with
  | .call id span callee args =>
    rw [Expr.calls, List.forall_mem_cons] at he
    obtain ⟨hcall, hargs⟩ := he
    have hwalk : ∀ e, Call.Holds ⟨id, span, callee, args⟩ e → (table.walkExpr e).Keeps R :=
      fun e h => keeps_walkExpr order hoffer e fun call hmem => hargs call (h.mem_calls hmem)
    rw [HookTable.walkExpr]
    refine order.bind (hoffer _ _ hcall hwalk) fun verdict => ?_
    cases verdict with
    | claim => exact order.pure ()
    | pass => exact keeps_walkExprs order hoffer args hargs
  | .function span params body =>
    rw [Expr.calls] at he
    rw [HookTable.walkExpr]
    exact order.keeps_withTry (keeps_walkNodes order hoffer body he) false
  | .array span elements =>
    rw [Expr.calls] at he
    rw [HookTable.walkExpr]
    exact keeps_walkExprs order hoffer elements he
  | .str .. | .object .. | .ident .. | .other .. =>
    rw [walkExpr_of_isAtom rfl]
    exact order.pure ()
termination_by sizeOf e
decreasing_by
  · have hlt : sizeOf e < sizeOf args := h.sizeOf_lt
    rw [Expr.call.sizeOf_spec]
    omega
  · rw [Expr.call.sizeOf_spec]
    omega
  · rw [Expr.function.sizeOf_spec]
    omega
  · rw [Expr.array.sizeOf_spec]
    omega

theorem keeps_walkExprs (order : WalkOrder calls R) (hoffer : Offer.KeepsTo calls R table.offer)
    (es : List Expr) (hes : ∀ call ∈ callsOfExprs es, calls call) :
    (table.walkExprs es).Keeps R := by
  match es with
  | [] =>
    rw [HookTable.walkExprs]
    exact order.pure ()
  | e :: rest =>
    rw [callsOfExprs, List.forall_mem_append] at hes
    rw [HookTable.walkExprs]
    exact order.bind (keeps_walkExpr order hoffer e hes.1) fun _ =>
      keeps_walkExprs order hoffer rest hes.2
termination_by sizeOf es

end

end Walk

end AmdBundle
