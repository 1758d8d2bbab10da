import ChatCommands.Assoc
import ChatCommands.Definition.Basic
import ChatCommands.Number.Binary64

set_option autoImplicit false

/-!
# Cooldowns

A tracker remembers the last completed run of each command and counts the runs
that are under way. While its window is open, from a completed run until so many
milliseconds later, the command is blocked; if runs under way count too, it is
also blocked during each of them. The two tables are keyed by the command's name.
-/
namespace ChatCommands

structure Run where
  command : Definition
  /-- milliseconds -/
  completed : Binary64

structure Tracker where
  /-- milliseconds; none if not positive -/
  window : Rat := 0
  countsInFlight : Bool := false
  latest : Assoc Run := []
  inFlight : Assoc Nat := []

namespace Tracker

def isEnabled (t : Tracker) : Bool := 0 < t.window

def latestRun? (t : Tracker) (name : String) : Option Run := t.latest.find? name

def running (t : Tracker) (name : String) : Nat := (t.inFlight.find? name).getD 0

/-- The command is blocked by a run under way. -/
def isBusy (t : Tracker) (name : String) : Bool :=
  t.isEnabled && t.countsInFlight && t.running name != 0

/-- The window after the last completed run is still open. -/
def isCooling (t : Tracker) (now : Binary64) (name : String) : Bool :=
  t.isEnabled && match t.latestRun? name with
    | none => false
    | some run => (now.sub run.completed).below t.window

def isBlocked (t : Tracker) (now : Binary64) (name : String) : Bool :=
  t.isBusy name || t.isCooling now name

def begin (t : Tracker) (name : String) : Tracker :=
  { t with inFlight := t.inFlight.put name (t.running name + 1) }

def finish (t : Tracker) (name : String) : Tracker :=
  { t with inFlight :=
      if 1 < t.running name then t.inFlight.put name (t.running name - 1) else t.inFlight.erase name }

def record (t : Tracker) (now : Binary64) (command : Definition) : Tracker :=
  { t with latest := t.latest.put command.name ⟨command, now⟩ }

def reset (t : Tracker) : Tracker := { t with latest := [], inFlight := [] }

end Tracker
end ChatCommands
