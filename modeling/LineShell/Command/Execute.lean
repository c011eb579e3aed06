import LineShell.Command.Basic
import LineShell.Machine

/-!
# Execution of commands

A builtin is carried out on the host, a program is started and waited for, and a name that stands
for nothing is reported.  A program that cannot be started is reported too.  What is left as a
failure of the command itself is a text that is not fit for the operating system or cannot be shown.
-/

namespace LineShell

def Failure.exitCode : Failure → Int
  | .system .noEntry _ => notFoundStatus
  | _ => cannotStartStatus

namespace Machine

def launch (m : Machine) (name path : Text) (args : List Text) :
    Except Failure Outcome × Machine :=
  let announced := m.note (.launching name path args)
  match announced.toHost.start path (name :: args) with
  | .ok (result, host) =>
    (.ok { stdout := result.stdout, stderr := result.stderr
           exitCode := result.status },
     ({ announced with toHost := host } : Machine).note (.ended name result.status))
  | .error failure =>
    if failure.isAnswer then
      (.ok { refusal := some failure.reason, exitCode := failure.exitCode },
       announced.note (.launchFailed name failure))
    else (.error failure, announced)

/-- A start error becomes a complaint under the name of the program. -/
def reportStart (name : Text) (o : Outcome) : Except Failure Outcome :=
  match o.refusal with
  | none => .ok o
  | some reason =>
    (Text.encode (name ++ ": ".toText ++ reason ++ "\n".toText)).map fun stderr =>
      { stderr, refusal := some reason, exitCode := o.exitCode }

def execute (m : Machine) (directories : List Text) :
    Command → Except Failure Outcome × Machine
  | .builtin b args =>
    match b.perform m.toHost directories args with
    | .ok (outcome, host) => (.ok outcome, { m with toHost := host })
    | .error failure => (.error failure, m)
  | .notFound name _ =>
    (Outcome.complain (name ++ ": command not found\n".toText) notFoundStatus,
      m.note (.unresolved name))
  | .external name path args =>
    match m.launch name path args with
    | (.ok outcome, after) => (reportStart name outcome, after)
    | (.error failure, after) => (.error failure, after)

end Machine

end LineShell
