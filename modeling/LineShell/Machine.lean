import LineShell.Host.Basic
import LineShell.Log.Event
import LineShell.Terminal

/-!
# The machine

Everything that the shell acts on: the host, the terminal, and the log of events.
-/

namespace LineShell

/-- A host with a terminal and a log, the oldest event first. -/
structure Machine extends Host where
  terminal : Terminal := {}
  log : List LogEvent := []
  deriving Repr, DecidableEq

namespace Machine

def note (m : Machine) (event : LogEvent) : Machine := { m with log := m.log ++ [event] }

def print (m : Machine) (stream : Stream) (data : Bytes) : Machine :=
  { m with terminal := m.terminal.print stream data }

def promptFor (m : Machine) (reader : Reader) (text : List Char) : Machine :=
  { m with terminal := m.terminal.promptFor reader text }

end Machine

end LineShell
