import AmdBundle.Text.Split

/-!
# AmdBundle.Log.Level — levels of log events

How much is let through, and the ways in which that is written.
-/

namespace AmdBundle

inductive LogLevel where
  | off
  | error
  | warn
  | info
  | debug
  | trace
  deriving DecidableEq, Repr

namespace LogLevel

def all : List LogLevel := [off, error, warn, info, debug, trace]

def name : LogLevel → String
  | off => "off"
  | error => "error"
  | warn => "warn"
  | info => "info"
  | debug => "debug"
  | trace => "trace"

/-- The level written by its name, in any case, or by its number; the empty text is `error`. -/
def ofText? (text : String) : Option LogLevel :=
  if text.isEmpty then some error
  else
    let digits := (Text.dropStart? text "+").getD text
    if !digits.isEmpty && digits.toList.all Char.isDigit then
      all[digits.toList.foldl (fun n d => n * 10 + (d.toNat - '0'.toNat)) 0]?
    else all.find? fun level => level.name.toList == text.toList.map Char.toLower

def ofVerbosity (verbosity : UInt8) : LogLevel :=
  if verbosity = 0 then info else if verbosity = 1 then debug else trace

end LogLevel
end AmdBundle
