import LineShell.Text.Quoted

/-!
# Options

The options of the command line.  `-c` and `--command` take a line to process, `--log-level` takes
a level, two flags switch on the modes of reading, and `--help` asks for help.  A value is the next
argument, or stands behind an equals sign in a long option, or behind the letter of a short one.
The last of a repeated option counts, and `--` ends the options.
-/

namespace LineShell

structure Options where
  command : Option Text := none
  quoteAware : Bool := false
  strict : Bool := false
  logLevel : Option Text := none
  help : Bool := false
  deriving Repr, DecidableEq

inductive UsageError
  | noSuchOption (name : Text)
  | requiresArgument (name : Text)
  | takesNoValue (name : Text)
  | extraArguments (args : List Text)
  deriving Repr, DecidableEq

/-- The wording of a usage error.  What was typed is quoted with its control characters shown. -/
def UsageError.message : UsageError → Text
  | .noSuchOption name => "No such option: ".toText ++ Quoted.showControls name
  | .requiresArgument name =>
    "Option '".toText ++ name ++ "' requires an argument.".toText
  | .takesNoValue name => "Option '".toText ++ name ++ "' does not take a value.".toText
  | .extraArguments args =>
    "Got unexpected extra argument(s) (".toText ++
      Quoted.showControls (joinWith " ".toText args) ++ ")".toText

inductive OptionKind
  | flag (set : Options → Options)
  | value (set : Text → Options → Options)

namespace Options

def long? (name : Text) : Option OptionKind :=
  if name = "--command".toText then some (.value fun v o => { o with command := some v })
  else if name = "--log-level".toText then some (.value fun v o => { o with logLevel := some v })
  else if name = "--quote-aware-redirection".toText then
    some (.flag fun o => { o with quoteAware := true })
  else if name = "--strict-quotes".toText then some (.flag fun o => { o with strict := true })
  else if name = "--help".toText then some (.flag fun o => { o with help := true })
  else none

def splitValue (arg : Text) : Text × Option Text :=
  match arg.dropWhile (· != .char '=') with
  | [] => (arg, none)
  | _ :: value => (arg.takeWhile (· != .char '='), some value)

inductive Argument
  | endOfOptions
  | plain
  | flag (set : Options → Options)
  /-- An option with its value in the same argument. -/
  | valued (set : Options → Options)
  /-- An option whose value is the next argument. -/
  | awaiting (name : Text) (set : Text → Options → Options)
  | bad (error : UsageError)

def shortArgument (letter : CodePoint) (rest : Text) : Argument :=
  if letter = 'c' then
    if rest = [] then .awaiting ['-', 'c'] fun v o => { o with command := some v }
    else .valued fun o => { o with command := some rest }
  else .bad (.noSuchOption ['-', letter])

def argument (arg : Text) : Argument :=
  if arg = "--".toText then .endOfOptions
  else
    let (name, value) := splitValue arg
    match arg, long? name, value with
    | .char '-' :: _ :: _, some (.flag set), none => .flag set
    | .char '-' :: _ :: _, some (.flag _), some _ => .bad (.takesNoValue name)
    | .char '-' :: _ :: _, some (.value set), none => .awaiting name set
    | .char '-' :: _ :: _, some (.value set), some v => .valued (set v)
    | .char '-' :: .char '-' :: _, none, _ => .bad (.noSuchOption name)
    | .char '-' :: letter :: rest, none, _ => shortArgument letter rest
    | _, _, _ => .plain

/-- Reads arguments: what they ask for beyond what was asked, and the arguments that are no
options. -/
def readFrom (o : Options) : List Text → Except UsageError (Options × List Text)
  | [] => .ok (o, [])
  | arg :: rest =>
    match argument arg with
    | .endOfOptions => .ok (o, rest)
    | .plain => (readFrom o rest).map fun (o, extra) => (o, arg :: extra)
    | .flag set => readFrom (set o) rest
    | .valued set => readFrom (set o) rest
    | .awaiting name set =>
      match rest with
      | [] => .error (.requiresArgument name)
      | value :: rest => readFrom (set value o) rest
    | .bad error => .error error

/-- Reads a command line; there may be no arguments but options, unless help is asked for. -/
def ofArguments (args : List Text) : Except UsageError Options :=
  match readFrom {} args with
  | .error error => .error error
  | .ok (o, extra) => if o.help || extra.isEmpty then .ok o else .error (.extraArguments extra)

def helpText : List Char :=
  ["Usage: myshell [OPTIONS]",
   "",
   "Start a session, or run a single line.",
   "",
   "  -c, --command TEXT          Run one line and exit",
   "  --quote-aware-redirection   Ignore redirection operators inside quotes",
   "  --strict-quotes             Reject lines that end inside a quote",
   "  --log-level TEXT            Log level",
   "  --help                      Show this message and exit"].flatMap fun line =>
    line.toList ++ ['\n']

end Options

end LineShell
