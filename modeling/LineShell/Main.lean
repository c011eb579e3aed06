import LineShell.CommandLine.Startup

/-!
# The program

Runs the shell on a machine in memory, whose root directory is empty.  Lines are read from standard
input one at a time, and what is written to the terminal goes to the standard streams as soon as a
line has been processed.
-/

namespace LineShell

def inheritedVariables : List Text :=
  "HOME".toText :: "PATH".toText ::
    [Field.historyFile, .logLevel, .prompt, .quoteAware, .strictQuotes].map fun field =>
      field.variable.map (CodePoint.map Char.toUpper)

def inheritedEnvironment : IO Environment := do
  let entries ← inheritedVariables.mapM fun name => do
    let value ← IO.getEnv (String.ofList (Quoted.showSurrogates name))
    return value.map fun v => (name, v.toText)
  return entries.filterMap id

def showWrites (kind : StreamKind) (writes : List Write) : IO Unit := do
  for write in writes do
    let shown := write.shown kind
    let stream ← match shown.place with
      | .err => IO.getStderr
      | .out | .prompt => IO.getStdout
    stream.write ⟨shown.chunk.toBytes.toArray⟩
    stream.flush

partial def holdSession (loop : Loop) (input : IO.FS.Stream) (s : Session) : IO Session := do
  let t ← input.getLine
  let event := if t.isEmpty then none else some (ReadEvent.text t.toText)
  let (ended, after) := loop.advance s event
  let terminal := after.machine.terminal
  showWrites terminal.kind (terminal.writes.drop (s.machine.terminal.writes.length + 1))
  if ended then return after
  showWrites terminal.kind [.prompt loop.reader loop.prompt]
  holdSession loop input after

def StartupError.message : StartupError → Text
  | .usage error => error.message
  | .unknownLevel error => error.message
  | .home error => error.message
  | .host failure => failure.account

def finish : Ending → IO UInt32
  | .exit status => return (status % 256).toNat.toUInt32
  | .broken error => do
    let shown := Quoted.showSurrogates (diagnostic error.message)
    showWrites .bytes [.data .stderr (.bytes (Utf8.encode shown))]
    return (match error with | .usage _ => 2 | _ => 1)

end LineShell

open LineShell in
def main (args : List String) : IO UInt32 := do
  let input ← IO.getStdin
  let host : Host :=
    { tree := .root, directory := [], env := ← inheritedEnvironment }
  let invocation : Invocation :=
    { args := args.map String.toText, atTerminal := ← input.isTty }
  match invocation.plan { toHost := host } with
  | .finished report =>
    showWrites .bytes report.machine.terminal.writes
    finish report.ending
  | .session loop machine _ _ =>
    showWrites .bytes (machine.terminal.writes ++ [.prompt loop.reader loop.prompt])
    let s ← holdSession loop input { machine }
    finish (.exit s.status)
