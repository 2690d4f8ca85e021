import AmdBundle.Walk.Hooks

/-!
# AmdBundle.Walk.Script — plugins written as scripts

A script is what one hook does, as a value: a list of effects that may depend on what the hook sees,
and a verdict or a refusal at the end.  `Plugin.ofScripts` is the plugin with a script for each
hook.
-/

namespace AmdBundle

/-- What a hook sees when it is asked. -/
structure Sight where
  call : Call
  state : FileState
  /-- The name that the call gives to a local module. -/
  named : Option String

inductive Script where
  | pass
  | claim
  | refuse (reason : String)
  | warn (message : String) (next : Script)
  | record (dependency : Dependency) (next : Script)
  /-- Changes the slots of a list of ids. -/
  | bind (change : Slots → Slots) (next : Script)
  /-- Walks the arguments of the call. -/
  | walkArgs (next : Script)
  | look (next : Sight → Script)

namespace Script

/-- Does what a script says, as a hook of the given plugin. -/
def run (plugin hook : String) (call : Call) (walk : Walker call) (named : Option String) :
    Script → Slots → WalkM (Verdict × Slots)
  | pass, slots => pure (.pass, slots)
  | claim, slots => pure (.claim, slots)
  | refuse reason, _ => WalkM.refuse ⟨plugin, hook, reason⟩
  | warn message next, slots => do
    WalkM.warn message
    run plugin hook call walk named next slots
  | record dependency next, slots => do
    WalkM.record dependency
    run plugin hook call walk named next slots
  | bind change next, slots => run plugin hook call walk named next (change slots)
  | walkArgs next, slots => do
    call.args.attach.forM fun arg => walk arg.1 (List.sizeOf_lt_of_mem arg.2)
    run plugin hook call walk named next slots
  | look next, slots => do
    let state ← get
    run plugin hook call walk named (next ⟨call, state, named⟩) slots

/-- Does what a script says where there are no slots. -/
def runPlain (plugin hook : String) (call : Call) (walk : Walker call) (named : Option String)
    (script : Script) : WalkM Verdict := do
  let (verdict, _) ← script.run plugin hook call walk named []
  return verdict

end Script

/-- The plugin whose hooks do what the scripts say. -/
def Plugin.ofScripts (name : String) (level : PluginLevel)
    (define require array item : Script) : Plugin where
  name := name
  level := level
  callDefine call host := define.runPlain name "call_define" call host.walk none
  callRequire call host := require.runPlain name "call_require" call host.walk none
  amdArray call walk _ slots named := array.run name "amd_array" call walk named slots
  amdItem call walk _ named := item.runPlain name "amd_item" call walk named

end AmdBundle
