import AmdBundle.Proofs.Walk.Order
import AmdBundle.Proofs.Walk.Run
import AmdBundle.Walk.Traverse

/-!
# AmdBundle.Proofs.Walk.Rounds — who is asked about a call, and in which order

A `Question` is what the plugins of a table are asked about a call: what to do with the call as a
whole, with one of its lists of ids, or with one id.  A round puts a question to plugins in order.
`RoundEnds` says how a round goes: those in front pass, each asked where the one before left the
file (`AllPass`), and the first that does not pass ends the round.  Every round over a table goes so
(`roundEnds_askWithSlots`), whether it is the walk that asks (`dispatch_eq`) or a plugin that is
being asked itself (`host_ask_eq`).

The order is that of the levels, and within a level that of adding, so that two ways of adding
plugins that agree on each level (`SameAtLevels`) make one and the same table
(`ofAdded_eq_of_sameAtLevels`).  `dispatch_byLevel` has both.
-/

namespace AmdBundle

/-- What the plugins of a table are asked about a call. -/
inductive Question where
  | define
  | require
  /-- A list of ids, and the name that the call gives to a local module. -/
  | array (param : Expr) (named : Option String)
  /-- One id, and that name. -/
  | item (param : Expr) (named : Option String)

variable {call : Call}

/-- Puts a question to one plugin.  Only the hook for lists of ids may change the slots. -/
def Question.put (question : Question) (host : CallHost call) (plugin : Plugin) (slots : Slots) :
    WalkM (Verdict × Slots) :=
  match question with
  | .define => return (← plugin.callDefine call host, slots)
  | .require => return (← plugin.callRequire call host, slots)
  | .array param named => plugin.amdArray call host.walk param slots named
  | .item param named => return (← plugin.amdItem call host.walk param named, slots)

/-- Puts a question to the whole table, as a plugin may that is being asked about the call. -/
def CallHost.ask (host : CallHost call) (question : Question) (slots : Slots) :
    WalkM (Verdict × Slots) :=
  match question with
  | .define | .require => return (← host.offerAgain, slots)
  | .array param named => host.askArray param slots named
  | .item param named => return (← host.askItem param named, slots)

namespace HookTable

/-- The table with plugins added one after the other. -/
def ofAdded (kind : DefineKind) (added : List Plugin) : HookTable :=
  { added.foldl add empty with defineKind := kind }

section Questions

variable (table : HookTable) (call : Call) (walk : Walker call) (question : Question)

/-- Puts a question to the table, by the dispatcher that is for it. -/
def dispatch (slots : Slots) : WalkM (Verdict × Slots) :=
  match question with
  | .define => return (← table.callDefine call walk, slots)
  | .require => return (← table.callRequire call walk, slots)
  | .array param named => table.amdArray call walk param slots named
  | .item param named => return (← table.amdItem call walk param named, slots)

/-- What the plugins may use that are asked in a second round. -/
def hostAgain : CallHost call := table.host call walk (pure .pass)

/-- What the plugins may use that a question is put to. -/
def hostFor : CallHost call :=
  match question with
  | .define => table.host call walk <|
      ask (fun plugin => plugin.callDefine call (table.hostAgain call walk)) table.plugins
  | .require => table.host call walk <|
      ask (fun plugin => plugin.callRequire call (table.hostAgain call walk)) table.plugins
  | .array _ _ | .item _ _ => table.hostAgain call walk

end Questions

/-! ### The order of a table -/

/-- At each level the lists have the same plugins in the same order. -/
def SameAtLevels (plugins other : List Plugin) : Prop :=
  ∀ level, plugins.filter (fun p => p.level == level) = other.filter (fun p => p.level == level)

variable {kind : DefineKind} {added other : List Plugin}

theorem plugins_ofAdded : (ofAdded kind added).plugins = byLevel added :=
  plugins_foldl_add added

theorem plugins_add_eq_mergeSort (table : HookTable) (plugin : Plugin) :
    (table.add plugin).plugins = (table.plugins ++ [plugin]).mergeSort Plugin.notAfter :=
  byLevel_eq_mergeSort (table.plugins ++ [plugin])

theorem byLevel_eq_iff : byLevel added = byLevel other ↔ SameAtLevels added other := by
  constructor
  · intro h level
    rw [← filter_byLevel level added, h, filter_byLevel]
  · exact byLevel_congr

theorem ofAdded_eq_of_sameAtLevels (h : SameAtLevels added other) :
    ofAdded kind added = ofAdded kind other := by
  show HookTable.mk (added.foldl add empty).plugins kind =
    HookTable.mk (other.foldl add empty).plugins kind
  rw [plugins_foldl_add, plugins_foldl_add, byLevel_congr h]

/-! ### How a round goes -/

/-- The plugins are asked one after the other, each where the one before left the slots and the
file, and all of them pass. -/
inductive AllPass (hook : Plugin → Slots → WalkM (Verdict × Slots)) :
    List Plugin → Slots × FileState → Slots × FileState → Prop where
  | nobody (start : Slots × FileState) : AllPass hook [] start start
  | next {plugin : Plugin} {rest : List Plugin} {start between last : Slots × FileState}
      (hpass : (hook plugin start.1).runFrom start.2 = (.ok (.pass, between.1), between.2))
      (hrest : AllPass hook rest between last) : AllPass hook (plugin :: rest) start last

def Decides (outcome : Except PluginError (Verdict × Slots) × FileState) : Prop :=
  ∀ slots, outcome.1 ≠ .ok (.pass, slots)

theorem decides_or_passes (outcome : Except PluginError (Verdict × Slots) × FileState) :
    Decides outcome ∨
      ∃ between : Slots × FileState, outcome = (.ok (.pass, between.1), between.2) := by
  rcases outcome with ⟨error | ⟨verdict, slots⟩, after⟩
  · exact .inl fun _ h => nomatch h
  · cases verdict with
    | claim => exact .inl fun _ h => nomatch h
    | pass => exact .inr ⟨(slots, after), rfl⟩

/-- How a round over the plugins goes that starts with the given slots and file. -/
inductive RoundEnds (hook : Plugin → Slots → WalkM (Verdict × Slots)) (order : List Plugin)
    (start : Slots × FileState) : Except PluginError (Verdict × Slots) × FileState → Prop where
  /-- Everybody was asked and passed. -/
  | passed {last : Slots × FileState} (h : AllPass hook order start last) :
      RoundEnds hook order start (.ok (.pass, last.1), last.2)
  /-- Those in front of `decider` were asked and passed; it claimed or failed, and nobody behind it
  was asked: whoever stands there, the round goes the same. -/
  | decided {front back : List Plugin} {decider : Plugin} {between : Slots × FileState}
      {outcome : Except PluginError (Verdict × Slots) × FileState}
      (horder : order = front ++ decider :: back) (hfront : AllPass hook front start between)
      (hrun : (hook decider between.1).runFrom between.2 = outcome) (hdecides : Decides outcome)
      (hbehind : ∀ others,
        (askWithSlots hook (front ++ decider :: others) start.1).runFrom start.2 = outcome) :
      RoundEnds hook order start outcome

section Rounds

variable {hook : Plugin → Slots → WalkM (Verdict × Slots)} {front order : List Plugin}
  {decider : Plugin} {start between : Slots × FileState}

theorem AllPass.runFrom_append (h : AllPass hook front start between) (rest : List Plugin) :
    (askWithSlots hook (front ++ rest) start.1).runFrom start.2 =
      (askWithSlots hook rest between.1).runFrom between.2 := by
  induction h with
  | nobody start => rfl
  | next hpass hrest ih =>
    rw [List.cons_append, askWithSlots, WalkM.runFrom_bind_of_ok hpass]
    exact ih

theorem runFrom_askWithSlots_of_decides
    (h : Decides ((hook decider start.1).runFrom start.2)) (others : List Plugin) :
    (askWithSlots hook (decider :: others) start.1).runFrom start.2 =
      (hook decider start.1).runFrom start.2 := by
  rw [askWithSlots, WalkM.runFrom_bind]
  rcases hrun : (hook decider start.1).runFrom start.2 with ⟨error | ⟨verdict, slots⟩, after⟩
  · rfl
  · cases verdict with
    | claim => rfl
    | pass => exact absurd (congrArg Prod.fst hrun) (h slots)

theorem allPass_or_decides (hook : Plugin → Slots → WalkM (Verdict × Slots))
    (order : List Plugin) (start : Slots × FileState) :
    (∃ last, AllPass hook order start last) ∨
      ∃ front decider back between, order = front ++ decider :: back ∧
        AllPass hook front start between ∧
        Decides ((hook decider between.1).runFrom between.2) := by
  induction order generalizing start with
  | nil => exact .inl ⟨start, .nobody start⟩
  | cons plugin rest ih =>
    rcases decides_or_passes ((hook plugin start.1).runFrom start.2) with
      hdecides | ⟨next, hpass⟩
    · exact .inr ⟨[], plugin, rest, start, rfl, .nobody start, hdecides⟩
    · rcases ih next with ⟨last, hrest⟩ | ⟨front, decider, back, between, rfl, hfront, hdecides⟩
      · exact .inl ⟨last, .next hpass hrest⟩
      · exact .inr ⟨plugin :: front, decider, back, between, rfl, .next hpass hfront, hdecides⟩

theorem roundEnds_askWithSlots (hook : Plugin → Slots → WalkM (Verdict × Slots))
    (order : List Plugin) (start : Slots × FileState) :
    RoundEnds hook order start ((askWithSlots hook order start.1).runFrom start.2) := by
  rcases allPass_or_decides hook order start with
    ⟨last, hall⟩ | ⟨front, decider, back, between, rfl, hfront, hdecides⟩
  · have hrun := hall.runFrom_append []
    rw [List.append_nil] at hrun
    rw [hrun]
    exact .passed hall
  · have hbehind : ∀ others,
        (askWithSlots hook (front ++ decider :: others) start.1).runFrom start.2 =
          (hook decider between.1).runFrom between.2 := fun others =>
      (hfront.runFrom_append _).trans (runFrom_askWithSlots_of_decides hdecides others)
    rw [hbehind back]
    exact .decided rfl hfront rfl hdecides hbehind

theorem askWithSlots_keeping (hook : Plugin → WalkM Verdict) (plugins : List Plugin)
    (slots : Slots) :
    askWithSlots (fun plugin slots => return (← hook plugin, slots)) plugins slots =
      (return (← ask hook plugins, slots)) := by
  induction plugins with
  | nil => rw [askWithSlots, ask, pure_bind]
  | cons plugin plugins ih =>
    rw [askWithSlots, ask, bind_assoc, bind_assoc]
    refine bind_congr fun verdict => ?_
    rw [pure_bind]
    cases verdict with
    | claim => exact (pure_bind _ _).symm
    | pass => exact ih

end Rounds

/-! ### Rounds over a table -/

section Dispatch

variable (table : HookTable) (walk : Walker call) (question : Question) (slots : Slots)

theorem dispatch_eq : table.dispatch call walk question slots =
    askWithSlots (question.put (table.hostFor call walk question)) table.plugins slots := by
  cases question with
  | array param named => rfl
  | define | require | item => exact (askWithSlots_keeping _ _ _).symm

theorem host_ask_eq : (table.hostFor call walk question).ask question slots =
    askWithSlots (question.put (table.hostAgain call walk)) table.plugins slots := by
  cases question with
  | array param named => rfl
  | define | require | item => exact (askWithSlots_keeping _ _ _).symm

end Dispatch

/-- **Order of asking.**  Each addition of a plugin sorts the table by level.  Whatever the order of
adding, the plugins of the first level come first, then the normal ones, then those of the last
level, each level in the order of adding; two ways of adding have the same order exactly if they
agree on each level, and then every question and every walk goes the same.  A question is put to the
plugins in this order, by the walk as by a plugin that is being asked, up to the first that claims
or fails. -/
theorem dispatch_byLevel (kind : DefineKind) (added : List Plugin) :
    let table := ofAdded kind added
    let order := added.filter (fun p => p.level == .pre) ++
      added.filter (fun p => p.level == .normal) ++ added.filter (fun p => p.level == .post)
    (∀ plugin, (table.add plugin).plugins =
      (table.plugins ++ [plugin]).mergeSort Plugin.notAfter) ∧
    table.plugins = order ∧
    (∀ other, (ofAdded kind other).plugins = table.plugins ↔ SameAtLevels other added) ∧
    (∀ other, SameAtLevels other added →
      (∀ call walk question slots, (ofAdded kind other).dispatch call walk question slots =
        table.dispatch call walk question slots) ∧
      ∀ program state, FileState.walk (ofAdded kind other) program state =
        FileState.walk table program state) ∧
    ∀ call walk question slots state,
      RoundEnds (question.put (table.hostFor call walk question)) order (slots, state)
        ((table.dispatch call walk question slots).runFrom state) ∧
      RoundEnds (question.put (table.hostAgain call walk)) order (slots, state)
        (((table.hostFor call walk question).ask question slots).runFrom state) := by
  intro table order
  have horder : table.plugins = order := plugins_ofAdded
  refine ⟨plugins_add_eq_mergeSort table, horder, fun other => ?_, fun other h => ?_,
    fun call walk question slots state => ⟨?_, ?_⟩⟩
  · rw [plugins_ofAdded, plugins_ofAdded]
    exact byLevel_eq_iff
  · rw [ofAdded_eq_of_sameAtLevels h]
    exact ⟨fun _ _ _ _ => rfl, fun _ _ => rfl⟩
  · rw [dispatch_eq, horder]
    exact roundEnds_askWithSlots _ order (slots, state)
  · rw [host_ask_eq, horder]
    exact roundEnds_askWithSlots _ order (slots, state)

/-- Plugins added from the last level to the first are asked from the first to the last. -/
example :
    let added : List Plugin :=
      [{ name := "late", level := .post }, .passive "usual", { name := "early", level := .pre }]
    (ofAdded .standard added).plugins.map Plugin.name = ["early", "usual", "late"] := rfl

end HookTable
end AmdBundle
