import LineShell.CommandLine.Options
import LineShell.Completion
import LineShell.Log.Setup
import LineShell.Loop
import LineShell.Settings.Basic

/-!
# Start-up

A run of the shell: the options are read, the settings are found, the log is set up, and then one
line is processed or a session is held.  Statements of the settings file that cannot be read are
complained of on the error stream and do not end the run; a line editor whose history has no place
does.
-/

namespace LineShell

/-- What a run is given. -/
structure Invocation where
  args : List Text := []
  /-- The text of the settings file. -/
  settingsFile : Option Text := none
  atTerminal : Bool := false
  input : List ReadEvent := []
  deriving Repr, DecidableEq

/-- Why a run breaks off. -/
inductive StartupError
  | usage (error : UsageError)
  | unknownLevel (error : UnknownLevel)
  | home (error : HomeError)
  | host (failure : Failure)
  deriving Repr, DecidableEq

inductive Ending
  | exit (status : Int)
  | broken (error : StartupError)
  deriving Repr, DecidableEq

structure Report where
  ending : Ending
  machine : Machine
  sinks : List Sink := []
  /-- Where the line editor kept its lines, if there was one. -/
  history : Option History := none
  deriving Repr, DecidableEq

/-- What start-up leads to: a run that is over, or a session that is to be held. -/
inductive Plan
  | finished (report : Report)
  | session (loop : Loop) (machine : Machine) (sinks : List Sink) (history : Option History)
  deriving Repr, DecidableEq

def Report.log (r : Report) : List LogEvent :=
  r.machine.log.filter fun event => r.sinks.any fun sink => event.level.reaches sink.level

def invalidSettingsStatus : Int := 2

def Options.given (o : Options) : List (Text × Option RawValue) :=
  [(Field.quoteAware.name, if o.quoteAware then some (.flag true) else none),
   (Field.strictQuotes.name, if o.strict then some (.flag true) else none),
   (Field.logLevel.name, o.logLevel.map .text)]

def Reader.ofInput (atTerminal : Bool) : Reader := if atTerminal then .editor else .plain

def Settings.loop (settings : Settings) (atTerminal : Bool) : Loop :=
  { shell := { modes := settings.modes }
    prompt := settings.prompt
    reader := .ofInput atTerminal }

/-- The history of a session, if a line editor holds it. -/
def Settings.history (settings : Settings) (env : Environment) (atTerminal : Bool) :
    Except HomeError (Option History) :=
  if atTerminal then (History.ofSetting env settings.historyFile).map some else .ok none

/-- A session under given settings.  A line editor whose history has no place reads nothing. -/
def Settings.session (settings : Settings) (m : Machine) (atTerminal : Bool)
    (input : List ReadEvent) : Except HomeError Session :=
  (settings.history m.env atTerminal).map fun _ =>
    (settings.loop atTerminal).run { machine := m } input

namespace Invocation

def isInteractive (inv : Invocation) (o : Options) : Bool := o.command.isNone && inv.atTerminal

def sources (inv : Invocation) (o : Options) (env : Environment) : Sources :=
  { given := o.given, environment := env, file := inv.settingsFile }

def complain (inv : Invocation) (m : Machine) : Machine :=
  ((inv.settingsFile.map SettingsFile.malformedLines).getD []).foldl
    (fun m line => m.print .stderr (Utf8.encode (SettingsFile.complaint line))) m

def oneLine (settings : Settings) (sinks : List Sink) (m : Machine) (line : Text) : Report :=
  match ({ modes := settings.modes } : Shell).runLine { machine := m } line with
  | (.ok _, s) => { ending := .exit s.status, machine := s.machine, sinks }
  | (.error failure, s) => { ending := .broken (.host failure), machine := s.machine, sinks }

def planUnder (inv : Invocation) (o : Options) (settings : Settings) (m : Machine) : Plan :=
  let profile := if inv.isInteractive o then interactiveProfile else defaultProfile
  match ({} : LogSetup).install (.ofChars settings.logLevel) profile with
  | (.error error, _) => .finished { ending := .broken (.unknownLevel error), machine := m }
  | (.ok sinks, _) =>
    match o.command with
    | some line => .finished (oneLine settings sinks m line)
    | none =>
      match settings.history m.env inv.atTerminal with
      | .error error => .finished { ending := .broken (.home error), machine := m, sinks }
      | .ok history => .session (settings.loop inv.atTerminal) m sinks history

def plan (inv : Invocation) (m : Machine) : Plan :=
  match Options.ofArguments inv.args with
  | .error error => .finished { ending := .broken (.usage error), machine := m }
  | .ok o =>
    if o.help then
      .finished { ending := .exit 0, machine := m.print .stdout (Utf8.encode Options.helpText) }
    else
      let m := inv.complain m
      match Settings.ofSources (inv.sources o m.env) with
      | .error invalid =>
        .finished
          { ending := .exit invalidSettingsStatus
            machine := m.print .stderr
              (Utf8.encode (shellName ++ ": invalid configuration: ".toList ++ invalid.summary ++
                ['\n'])) }
      | .ok settings => inv.planUnder o settings m

def run (inv : Invocation) (m : Machine) : Report :=
  match inv.plan m with
  | .finished report => report
  | .session loop m sinks history =>
    let s := loop.run { machine := m } inv.input
    { ending := .exit s.status, machine := s.machine, sinks, history }

end Invocation

end LineShell
