import LineShell.Line.Instruction
import LineShell.Settings.File
import LineShell.Settings.Value

/-!
# Settings

The settings of the shell come from values given directly, from the environment, from a settings
file, and from defaults, the first of these that has a value.  Only that value is read, and all
settings that cannot be read are reported together.
-/

namespace LineShell

/-- What can be set. -/
inductive Field
  | historyFile
  | logLevel
  | prompt
  | quoteAware
  | strictQuotes
  deriving Repr, DecidableEq

def Field.name : Field → Text
  | .historyFile => "history_file".toText
  | .logLevel => "log_level".toText
  | .prompt => "prompt".toText
  | .quoteAware => "quote_aware_redirection".toText
  | .strictQuotes => "strict_quotes".toText

/-- The name of the variable of a setting, in lower case. -/
def Field.variable (field : Field) : Text := "myshell_".toText ++ field.name

structure Settings where
  prompt : List Char := "$ ".toList
  historyFile : Option LexicalPath := none
  modes : Modes := {}
  logLevel : List Char := "WARNING".toList
  deriving Repr, DecidableEq

structure Sources where
  /-- Values given directly, by name; a name may be given no value. -/
  given : List (Text × Option RawValue) := []
  environment : Environment := []
  file : Option Text := none
  deriving Repr, DecidableEq

def sameName (a b : Text) : Bool :=
  a.map (CodePoint.map Char.toLower) == b.map (CodePoint.map Char.toLower)

namespace Sources

/-- The value given directly; the first one of a name counts. -/
def givenValue? (s : Sources) (field : Field) : Option RawValue :=
  (s.given.find? fun entry => entry.2.isSome && sameName entry.1 field.name).bind Prod.snd

/-- The value in the environment; the last one of a name counts. -/
def environmentValue? (s : Sources) (field : Field) : Option RawValue :=
  (s.environment.reverse.find? fun entry => sameName entry.1 field.variable).map fun entry =>
    .text entry.2

def fileValue? (s : Sources) (field : Field) : Option RawValue :=
  match s.file with
  | none => none
  | some t =>
    ((SettingsFile.bindings s.environment t).reverse.find? fun b =>
      sameName b.name field.variable).bind fun b => b.value.map .text

def value? (s : Sources) (field : Field) : Option RawValue :=
  (s.givenValue? field).or ((s.environmentValue? field).or (s.fileValue? field))

/-- Reads a setting, or takes its default if no source has a value. -/
def read {α : Type} (s : Sources) (field : Field) (reading : RawValue → Except Problem α)
    (default : α) : Except Problem α :=
  match s.value? field with
  | none => .ok default
  | some value => reading value

end Sources

/-- The settings that cannot be used, in the order of their names. -/
structure InvalidSettings where
  problems : List (Field × Problem)
  deriving Repr, DecidableEq

def InvalidSettings.summary (e : InvalidSettings) : List Char :=
  Nat.toDigits 10 e.problems.length ++
    (if e.problems.length = 1 then " validation error".toList else " validation errors".toList) ++
    " for Settings".toList

def problemOf {α : Type} (field : Field) : Except Problem α → List (Field × Problem)
  | .ok _ => []
  | .error problem => [(field, problem)]

def Settings.ofSources (s : Sources) : Except InvalidSettings Settings :=
  let default : Settings := {}
  let history := s.read .historyFile (fun v => v.toPath.map some) default.historyFile
  let level := s.read .logLevel RawValue.toText default.logLevel
  let prompt := s.read .prompt RawValue.toText default.prompt
  let quoteAware := s.read .quoteAware RawValue.toFlag default.modes.quoteAware
  let strict := s.read .strictQuotes RawValue.toFlag default.modes.strict
  match history, level, prompt, quoteAware, strict with
  | .ok historyFile, .ok logLevel, .ok prompt, .ok quoteAware, .ok strict =>
    .ok { prompt, historyFile, logLevel, modes := { quoteAware, strict } }
  | _, _, _, _, _ =>
    .error { problems :=
      problemOf .historyFile history ++ problemOf .logLevel level ++ problemOf .prompt prompt ++
        problemOf .quoteAware quoteAware ++ problemOf .strictQuotes strict }

end LineShell
