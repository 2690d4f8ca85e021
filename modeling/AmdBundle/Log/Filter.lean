import AmdBundle.Log.Directive

/-!
# AmdBundle.Log.Filter — which log events are let through

A filter is a list of directives; of those that apply to a target the one that no other has
precedence over decides, and where none applies nothing is let through.  The filter of the
environment is written as directives with commas between them; the verbosity of a run adds one for
the library's own events.  A filter can be installed once.

What is told is which levels are let through for a target outside of all spans, before there is an
event: directives for spans have no part in it, and one that asks for a field applies as if the
event had it.
-/

namespace AmdBundle

/-- Directives, at most one for the same events. -/
abbrev LogFilter : Type := List LogDirective

namespace LogFilter

/-- The filter with the directive, which takes the place of one for the same events. -/
def add (filter : LogFilter) (directive : LogDirective) : LogFilter :=
  List.filter (fun other => !other.sameEvents directive) filter ++ [directive]

def ofText? (text : String) : Option LogFilter := do
  let parts := (Text.split ',' text).filter fun part => !part.isEmpty
  let directives ← parts.mapM LogDirective.ofText?
  return (directives.filter fun directive => !directive.isForSpans).foldl add []

/-- The filter of the environment; where none is set, or one that is not well formed, warnings are
let through. -/
def ofEnvironment (setting : Option String) : LogFilter :=
  (setting.bind ofText?).getD [{ level := .warn }]

def ownTarget : String := "amdmid_core"

/-- The filter for a run of the given verbosity. -/
def forRun (setting : Option String) (verbosity : UInt8) : LogFilter :=
  add (ofEnvironment setting) { target := some ownTarget, level := .ofVerbosity verbosity }

/-- The directive that decides for a target. -/
def decisive? (filter : LogFilter) (target : String) : Option LogDirective :=
  (List.filter (·.appliesTo target) filter).foldl
    (fun best directive =>
      if best.all (·.yieldsTo directive) then some directive else best)
    none

/-- The level that is let through for a target. -/
def levelFor (filter : LogFilter) (target : String) : LogLevel :=
  ((filter.decisive? target).map LogDirective.level).getD .off

end LogFilter

/-- The filter of a process, once one is installed. -/
structure LogState where
  installed : Option LogFilter := none

namespace LogState

/-- Installs the filter for a run, if there is none; tells whether it did. -/
def init (state : LogState) (setting : Option String) (verbosity : UInt8) : Bool × LogState :=
  match state.installed with
  | some _ => (false, state)
  | none => (true, ⟨some (LogFilter.forRun setting verbosity)⟩)

/-- The level that is let through for a target; without a filter nothing is. -/
def levelFor (state : LogState) (target : String) : LogLevel :=
  (state.installed.map (·.levelFor target)).getD .off

end LogState
end AmdBundle
