import LineShell.Command.Execute
import LineShell.Delivery
import LineShell.Line.Instruction

/-!
# The shell

A shell reads a line, carries out the command in it, and delivers the output where the line asks
for it.  `Shell.answer` stops before delivery; `Shell.runLine` goes on to it and keeps the exit code
of the line as the status of the session.
-/

namespace LineShell

/-- How a shell reads lines and where it looks for programs. -/
structure Shell where
  modes : Modes := {}
  searchPath : SearchPath := .environment
  deriving Repr, DecidableEq

/-- What the shell replies to a line before the output is delivered. -/
structure Reply where
  stdout : Bytes := []
  stderr : Bytes := []
  redirection : Option Redirection := none
  exitCode : Int := 0
  endsSession : Bool := false
  deriving Repr, DecidableEq

def unreadableStatus : Int := 2

/-- A machine in the hands of a shell, and the exit code of the last line that was processed. -/
structure Session where
  machine : Machine
  status : Int := 0
  deriving Repr, DecidableEq

namespace Reply

def ofLineError (e : LineError) : Except Failure Reply :=
  (diagnostic (.ofChars e.message)).encode.map fun stderr =>
    { stderr, exitCode := unreadableStatus }

def ofOutcome (redirection : Option Redirection) (command : Command) (o : Outcome) : Reply :=
  { stdout := o.stdout
    stderr := o.stderr
    redirection
    exitCode := o.exitCode
    endsSession := command.isExit }

end Reply

namespace Shell

/-- Carries out an instruction; one without words does nothing. -/
def carryOut (shell : Shell) (m : Machine) (instruction : Instruction) :
    Except Failure Reply × Machine :=
  let directories := shell.searchPath.directories m.env
  match Command.ofWords? m.toHost directories instruction.words with
  | none => (.ok { redirection := instruction.redirection }, m)
  | some command =>
    match m.execute directories command with
    | (.ok outcome, after) => (.ok (.ofOutcome instruction.redirection command outcome), after)
    | (.error failure, after) => (.error failure, after)

/-- Reads a line and carries out its command; a blank line does nothing. -/
def answer (shell : Shell) (m : Machine) (line : Text) : Except Failure Reply × Machine :=
  let trimmed := Text.trim line
  if trimmed = [] then (.ok {}, m)
  else match Instruction.ofLine shell.modes trimmed with
    | .error e => (Reply.ofLineError e, m)
    | .ok instruction => shell.carryOut m instruction

/-- Reads a line, carries out its command and delivers the output. -/
def runLine (shell : Shell) (s : Session) (line : Text) : Except Failure Reply × Session :=
  match shell.answer s.machine line with
  | (.ok reply, m) =>
    match m.deliver reply.stdout reply.stderr reply.redirection with
    | (none, delivered) => (.ok reply, { machine := delivered, status := reply.exitCode })
    | (some failure, left) => (.error failure, { s with machine := left })
  | (.error failure, m) => (.error failure, { s with machine := m })

end Shell

end LineShell
