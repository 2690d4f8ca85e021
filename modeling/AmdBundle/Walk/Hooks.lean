import AmdBundle.Walk.State

/-!
# AmdBundle.Walk.Hooks — plugins and the table of their hooks

A walk offers the calls of a file to plugins.  The plugins are asked in order, and the first one
that claims what it is offered ends the round (`HookTable.ask`).  The order is that of the levels,
and within a level that of adding (`HookTable.add`).

What a hook may do beyond changing the state it gets from its caller: walk expressions inside the
call, and, for a whole call, ask the table about the call's lists and ids, and offer the call once
more to the whole table.  A hook that is asked in such a second round gets no third one.
-/

namespace AmdBundle

inductive Verdict where
  | pass
  | claim
  deriving DecidableEq, Repr

/-- When a plugin is asked. -/
inductive PluginLevel where
  | pre
  | normal
  | post
  deriving DecidableEq, Repr

/-- By position in a list of ids, the names that function parameters must have. -/
abbrev Slots : Type := List (Option String)

/-- Walks an expression inside a call. -/
abbrev Walker (call : Call) : Type :=
  (e : Expr) → sizeOf e < sizeOf call.args → WalkM Unit

/-- What a hook for a whole call may use. -/
structure CallHost (call : Call) where
  walk : Walker call
  /-- Asks the table about a list of ids; gives the slots as the hooks left them. -/
  askArray : Expr → Slots → Option String → WalkM (Verdict × Slots)
  /-- Asks the table about one id. -/
  askItem : Expr → Option String → WalkM Verdict
  /-- Offers the call once more to the whole table. -/
  offerAgain : WalkM Verdict
  /-- What is to carry out `define` calls. -/
  defineKind : DefineKind

structure Plugin where
  name : String
  level : PluginLevel := .normal
  /-- A call of `define`. -/
  callDefine : (call : Call) → CallHost call → WalkM Verdict := fun _ _ => pure .pass
  /-- A call of `require`. -/
  callRequire : (call : Call) → CallHost call → WalkM Verdict := fun _ _ => pure .pass
  /-- The list of ids of a call; the last argument is the name that the call gives to a local
  module. -/
  amdArray : (call : Call) → Walker call → Expr → Slots → Option String → WalkM (Verdict × Slots) :=
    fun _ _ _ slots _ => pure (.pass, slots)
  /-- One id of a list. -/
  amdItem : (call : Call) → Walker call → Expr → Option String → WalkM Verdict :=
    fun _ _ _ _ => pure .pass

namespace Plugin

/-- A plugin that passes on everything. -/
def passive (name : String) : Plugin := { name }

end Plugin

/-- The plugins in the order they are asked, and what carries out `define` calls. -/
structure HookTable where
  plugins : List Plugin := []
  defineKind : DefineKind := .standard

namespace HookTable

def empty : HookTable := {}

/-- The plugins by level, each level in the order it has. -/
def byLevel (plugins : List Plugin) : List Plugin :=
  plugins.filter (fun p => p.level == .pre) ++ plugins.filter (fun p => p.level == .normal) ++
    plugins.filter (fun p => p.level == .post)

/-- Adds a plugin behind those of its level. -/
def add (table : HookTable) (plugin : Plugin) : HookTable :=
  { table with plugins := byLevel (table.plugins ++ [plugin]) }

/-- Asks plugins in order up to the first that claims. -/
def ask (hook : Plugin → WalkM Verdict) : List Plugin → WalkM Verdict
  | [] => pure .pass
  | plugin :: rest => do
    match ← hook plugin with
    | .claim => pure .claim
    | .pass => ask hook rest

/-- Asks plugins in order up to the first that claims; the slots go from one to the next. -/
def askWithSlots (hook : Plugin → Slots → WalkM (Verdict × Slots)) :
    List Plugin → Slots → WalkM (Verdict × Slots)
  | [], slots => pure (.pass, slots)
  | plugin :: rest, slots => do
    match ← hook plugin slots with
    | (.claim, slots) => pure (.claim, slots)
    | (.pass, slots) => askWithSlots hook rest slots

variable (table : HookTable) (call : Call) (walk : Walker call)

def amdArray (param : Expr) (slots : Slots) (named : Option String) : WalkM (Verdict × Slots) :=
  askWithSlots (fun plugin slots => plugin.amdArray call walk param slots named) table.plugins slots

def amdItem (param : Expr) (named : Option String) : WalkM Verdict :=
  ask (fun plugin => plugin.amdItem call walk param named) table.plugins

/-- What a hook for a whole call may use, where a second round is `again`. -/
def host (again : WalkM Verdict) : CallHost call where
  walk := walk
  askArray := table.amdArray call walk
  askItem := table.amdItem call walk
  offerAgain := again
  defineKind := table.defineKind

/-- Asks about a whole call, with a second round for the hooks that want one. -/
def twoRounds (hook : Plugin → CallHost call → WalkM Verdict) : WalkM Verdict :=
  let second := ask (fun plugin => hook plugin (table.host call walk (pure .pass))) table.plugins
  ask (fun plugin => hook plugin (table.host call walk second)) table.plugins

def callDefine : WalkM Verdict := table.twoRounds call walk fun plugin => plugin.callDefine call

def callRequire : WalkM Verdict := table.twoRounds call walk fun plugin => plugin.callRequire call

/-- Offers a call by what it calls; calls of other functions are offered to nobody. -/
def offer : WalkM Verdict :=
  if call.callee = "define" then table.callDefine call walk
  else if call.callee = "require" then table.callRequire call walk
  else pure .pass

end HookTable
end AmdBundle
