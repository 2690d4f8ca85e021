import AmdBundle.Dojo.Binder
import AmdBundle.Dojo.Interceptor
import AmdBundle.Amd.Handler
import AmdBundle.Walk.Script

/-!
# AmdBundle.Proofs.Walk.Conduct — what plugins of others may do

A hook is `Ordinary` if it is put together from what a plugin has at hand: it may look at the state,
warn, record dependencies, walk expressions of the call, fail, go on after a failure, and answer as
it likes.  It neither changes what is recorded nor touches the marks.  A plugin is ordinary if its
hooks are (`Plugin.IsOrdinary`); those made of scripts are (`Script.isOrdinary_ofScripts`).

`IsWalkPlugin` are the plugins that a table may have: those that know AMD calls, and ordinary ones.
-/

namespace AmdBundle

/-- The expression is an argument of the call, or an element of an array literal among these. -/
inductive Call.Holds (call : Call) : Expr → Prop where
  | argument {e : Expr} (h : e ∈ call.args) : call.Holds e
  | element {e : Expr} {span : Span} {elements : List Expr}
      (hlist : .array span elements ∈ call.args) (h : e ∈ elements) : call.Holds e

theorem Call.Holds.sizeOf_lt {call : Call} {e : Expr} (h : call.Holds e) :
    sizeOf e < sizeOf call.args := by
  cases h with
  | argument h => exact List.sizeOf_lt_of_mem h
  | element hlist h => exact Amd.sizeOf_lt_of_mem_elements hlist rfl h

/-- A step that does what a hook for the call may do, with dependencies of the given kind. -/
inductive WalkM.Ordinary (call : Call) (walk : Walker call) (records : Dependency → Prop) :
    {α : Type} → WalkM α → Prop where
  | pure {α : Type} (a : α) : Ordinary call walk records (Pure.pure a : WalkM α)
  | bind {α β : Type} {x : WalkM α} {k : α → WalkM β} (hx : Ordinary call walk records x)
      (hk : ∀ a, Ordinary call walk records (k a)) : Ordinary call walk records (x >>= k)
  | look : Ordinary call walk records (get : WalkM FileState)
  | warn (message : String) : Ordinary call walk records (WalkM.warn message)
  | record {dependency : Dependency} (h : records dependency) :
      Ordinary call walk records (WalkM.record dependency)
  | walk {e : Expr} (h : call.Holds e) : Ordinary call walk records (walk e h.sizeOf_lt)
  | refuse {α : Type} (error : PluginError) :
      Ordinary call walk records (WalkM.refuse error : WalkM α)
  | rescue {α : Type} {x : WalkM α} {handle : PluginError → WalkM α}
      (hx : Ordinary call walk records x) (hhandle : ∀ e, Ordinary call walk records (handle e)) :
      Ordinary call walk records (tryCatch x handle)

/-- A plugin whose hooks do what hooks may do, for calls and dependencies of the given kinds. -/
structure Plugin.IsOrdinary (calls : Call → Prop) (records : Dependency → Prop) (plugin : Plugin) :
    Prop where
  callDefine : ∀ (call : Call) (host : CallHost call), calls call →
    WalkM.Ordinary call host.walk records (plugin.callDefine call host)
  callRequire : ∀ (call : Call) (host : CallHost call), calls call →
    WalkM.Ordinary call host.walk records (plugin.callRequire call host)
  amdArray : ∀ (call : Call) (walk : Walker call) (param : Expr) (slots : Slots)
    (named : Option String), calls call → param ∈ call.args →
    WalkM.Ordinary call walk records (plugin.amdArray call walk param slots named)
  amdItem : ∀ (call : Call) (walk : Walker call) (param : Expr) (named : Option String),
    calls call → call.Holds param →
    WalkM.Ordinary call walk records (plugin.amdItem call walk param named)

/-- A plugin for AMD calls, with a loader of the given kind, or an ordinary one. -/
inductive IsWalkPlugin (loaders : String → Prop) (calls : Call → Prop)
    (records : Dependency → Prop) : Plugin → Prop where
  | handler : IsWalkPlugin loaders calls records Amd.handler
  | interceptor {loaderRequest : String} (h : loaders loaderRequest) :
      IsWalkPlugin loaders calls records (Dojo.interceptor loaderRequest)
  | binder (requireIdent : String) :
      IsWalkPlugin loaders calls records (Dojo.binder requireIdent)
  | ordinary {plugin : Plugin} (h : plugin.IsOrdinary calls records) :
      IsWalkPlugin loaders calls records plugin

/-! ### Scripts -/

section Scripts

variable {call : Call} {walk : Walker call} {calls : Call → Prop} {records : Dependency → Prop}

theorem WalkM.Ordinary.forM {γ : Type} {xs : List γ} {f : γ → WalkM Unit}
    (h : ∀ x ∈ xs, WalkM.Ordinary call walk records (f x)) :
    WalkM.Ordinary call walk records (xs.forM f) := by
  induction xs with
  | nil => exact .pure ()
  | cons x xs ih =>
    obtain ⟨hx, hxs⟩ := List.forall_mem_cons.mp h
    exact .bind hx fun _ => ih hxs

namespace Script

/-- The dependencies that a script records at calls of one kind are of another. -/
def RecordsOnly (calls : Call → Prop) (records : Dependency → Prop) : Script → Prop
  | pass | claim | refuse _ => True
  | warn _ next | bind _ next | walkArgs next => next.RecordsOnly calls records
  | record dependency next => records dependency ∧ next.RecordsOnly calls records
  | look next => ∀ sight, calls sight.call → (next sight).RecordsOnly calls records

variable {script : Script}

theorem ordinary_run (hcall : calls call) (plugin hook : String) (named : Option String)
    (h : script.RecordsOnly calls records) (slots : Slots) :
    WalkM.Ordinary call walk records (script.run plugin hook call walk named slots) := by
  induction script generalizing slots with
  | pass => exact .pure _
  | claim => exact .pure _
  | refuse reason => exact .refuse _
  | warn message next ih => exact .bind (.warn message) fun _ => ih h slots
  | record dependency next ih => exact .bind (.record h.1) fun _ => ih h.2 slots
  | bind change next ih => exact ih h (change slots)
  | walkArgs next ih =>
    have hargs : WalkM.Ordinary call walk records
        (call.args.attach.forM fun arg => walk arg.1 (List.sizeOf_lt_of_mem arg.2)) :=
      .forM fun arg _ => .walk (.argument arg.2)
    exact .bind hargs fun _ => ih h slots
  | look next ih => exact .bind .look fun state => ih _ (h _ hcall) slots

theorem ordinary_runPlain (hcall : calls call) (plugin hook : String) (named : Option String)
    (h : script.RecordsOnly calls records) :
    WalkM.Ordinary call walk records (script.runPlain plugin hook call walk named) :=
  .bind (ordinary_run hcall plugin hook named h []) fun _ => .pure _

theorem isOrdinary_ofScripts {define require array item : Script} (name : String)
    (level : PluginLevel) (hdefine : define.RecordsOnly calls records)
    (hrequire : require.RecordsOnly calls records) (harray : array.RecordsOnly calls records)
    (hitem : item.RecordsOnly calls records) :
    (Plugin.ofScripts name level define require array item).IsOrdinary calls records where
  callDefine _ _ hcall := ordinary_runPlain hcall name "call_define" none hdefine
  callRequire _ _ hcall := ordinary_runPlain hcall name "call_require" none hrequire
  amdArray _ _ _ slots named hcall _ := ordinary_run hcall name "amd_array" named harray slots
  amdItem _ _ _ named hcall _ := ordinary_runPlain hcall name "amd_item" named hitem

end Script

end Scripts

end AmdBundle
