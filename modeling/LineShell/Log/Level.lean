import LineShell.Text.Blank

/-!
# Log levels

The levels of log entries, ordered by their numbers.
-/

namespace LineShell

inductive Level
  | trace
  | debug
  | info
  | success
  | warning
  | error
  | critical
  deriving Repr, DecidableEq

namespace Level

def all : List Level := [.trace, .debug, .info, .success, .warning, .error, .critical]

def number : Level → Nat
  | .trace => 5
  | .debug => 10
  | .info => 20
  | .success => 25
  | .warning => 30
  | .error => 40
  | .critical => 50

def name : Level → Text
  | .trace => "TRACE".toText
  | .debug => "DEBUG".toText
  | .info => "INFO".toText
  | .success => "SUCCESS".toText
  | .warning => "WARNING".toText
  | .error => "ERROR".toText
  | .critical => "CRITICAL".toText

def ofName? (t : Text) : Option Level := all.find? fun level => level.name == t

def reaches (level threshold : Level) : Bool := threshold.number ≤ level.number

@[simp] theorem ofName?_name (level : Level) : ofName? level.name = some level := by
  cases level <;> decide

end Level

end LineShell
