import LineShell.Line.Operator

/-!
# Instructions

An instruction is what a line asks for: the words of a command, and where its output goes.  A line
is cut at its redirection first, and the command is then read as words.
-/

namespace LineShell

structure Modes where
  /-- Operators inside quotes do not count. -/
  quoteAware : Bool := false
  /-- The command may not end inside a quote. -/
  strict : Bool := false
  deriving Repr, DecidableEq

/-- The words of a line and its redirection, if it has one. -/
structure Instruction where
  words : List Text
  redirection : Option Redirection
  deriving Repr, DecidableEq

def Instruction.ofLine (modes : Modes) (line : Text) : Except LineError Instruction :=
  let (command, redirection) := cutRedirection modes.quoteAware line
  match readWords modes.strict command with
  | .error e => .error e
  | .ok words => .ok { words, redirection }

/-- The name of a command and its arguments; without words the name is empty. -/
def nameAndArguments : List Text → Text × List Text
  | [] => ([], [])
  | name :: args => (name, args)

end LineShell
