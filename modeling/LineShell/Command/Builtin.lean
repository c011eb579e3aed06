import LineShell.Command.Outcome
import LineShell.Command.SearchPath
import LineShell.Text.Numeral

/-!
# Builtin commands

The commands that the shell carries out itself.  Only `cd` changes the host.  A command fails
without a report of its own if what it would say has no bytes, and `cd` also if its argument is not
fit for the operating system.
-/

namespace LineShell

inductive Builtin
  | cd
  | echo
  | exit
  | pwd
  | type
  deriving Repr, DecidableEq

namespace Builtin

def all : List Builtin := [.cd, .echo, .exit, .pwd, .type]

def name : Builtin → Text
  | .cd => "cd".toText
  | .echo => "echo".toText
  | .exit => "exit".toText
  | .pwd => "pwd".toText
  | .type => "type".toText

def ofName? (t : Text) : Option Builtin := all.find? fun b => b.name == t

@[simp] theorem ofName?_name (b : Builtin) : ofName? b.name = some b := by
  cases b <;> decide

/-- The exit code that `exit` asks for: none given is 0, and what is no number is 1. -/
def exitStatus : List Text → Int
  | [] => 0
  | arg :: _ => (Numeral.parse? arg).getD 1

def expandHome (home t : Text) : Text := t.flatMap fun c => if c = .char '~' then home else [c]

def cdTarget : List Text → Text
  | [] => "~".toText
  | arg :: _ => arg

def changeDirectory (host : Host) (args : List Text) : Except Failure (Outcome × Host) :=
  let target := cdTarget args
  match host.changeDirectory (expandHome (host.env.getD "HOME".toText) target) with
  | .ok moved => .ok ({}, moved)
  | .error failure =>
    if failure.isAnswer then
      (Outcome.complain ("cd: ".toText ++ target ++ ": No such file or directory\n".toText) 1).map
        (·, host)
    else .error failure

def tellDirectory (host : Host) : Except Failure Outcome :=
  match host.workingDirectory with
  | .ok directory => Outcome.say (directory ++ "\n".toText)
  | .error error => Outcome.complain ("pwd: ".toText ++ error.reason ++ "\n".toText) 1

/-- What `type` says of a name: a line of output, or a line of complaint. -/
def describe (host : Host) (directories : List Text) (name : Text) : Text ⊕ Text :=
  if (ofName? name).isSome then .inl (name ++ " is a shell builtin\n".toText)
  else match host.findProgram directories name with
    | some path => .inl (name ++ " is ".toText ++ path ++ "\n".toText)
    | none => .inr (name ++ ": not found\n".toText)

def describeAll (host : Host) (directories : List Text) (names : List Text) :
    Except Failure Outcome := do
  let lines := names.map (describe host directories)
  let known := lines.filterMap Sum.getLeft?
  let unknown := lines.filterMap Sum.getRight?
  let stdout ← Text.encode known.flatten
  let stderr ← Text.encode unknown.flatten
  return { stdout, stderr, exitCode := if unknown.isEmpty then 0 else 1 }

def perform (host : Host) (directories args : List Text) :
    Builtin → Except Failure (Outcome × Host)
  | .cd => changeDirectory host args
  | .echo => (Outcome.say (joinWith " ".toText args ++ "\n".toText)).map (·, host)
  | .exit => .ok ({ exitCode := exitStatus args }, host)
  | .pwd => (tellDirectory host).map (·, host)
  | .type => (describeAll host directories args).map (·, host)

end Builtin

end LineShell
