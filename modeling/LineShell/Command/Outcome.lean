import LineShell.Host.Failure

/-!
# Outcomes

What a command leaves: its two output buffers and its exit code, and a reason if it did not start.
A text that has no bytes cannot be left.
-/

namespace LineShell

structure Outcome where
  stdout : Bytes := []
  stderr : Bytes := []
  /-- Why the command did not start, if it did not. -/
  refusal : Option Text := none
  exitCode : Int := 0
  deriving Repr, DecidableEq

namespace Outcome

def started (o : Outcome) : Bool := o.refusal.isNone

def say (t : Text) : Except Failure Outcome := t.encode.map fun stdout => { stdout }

def complain (t : Text) (exitCode : Int) : Except Failure Outcome :=
  t.encode.map fun stderr => { stderr, exitCode }

end Outcome

def notFoundStatus : Int := 127

def cannotStartStatus : Int := 126

end LineShell
