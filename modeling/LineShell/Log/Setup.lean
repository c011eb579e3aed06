import LineShell.Log.Level
import LineShell.Text.Uppercase

/-!
# Log set-up

Log entries go to sinks.  Setting up the log for a profile and a level replaces the sinks by one,
unless the last successful set-up was for the same profile and level.  An unknown level is found
only after the old sinks are gone.
-/

namespace LineShell

inductive SinkKind
  /-- The error stream. -/
  | plain
  /-- A console on the error stream that styles what it shows. -/
  | styled
  deriving Repr, DecidableEq

structure Sink where
  kind : SinkKind
  level : Level
  deriving Repr, DecidableEq

def interactiveProfile : Text := "interactive".toText

def defaultProfile : Text := "default".toText

def SinkKind.ofProfile (profile : Text) : SinkKind :=
  if profile = interactiveProfile then .styled else .plain

/-- The sinks that are installed, and the profile and level of the last successful set-up. -/
structure LogSetup where
  sinks : List Sink := []
  remembered : Option (Text × Text) := none
  deriving Repr, DecidableEq

structure UnknownLevel where
  name : Text
  deriving Repr, DecidableEq

def UnknownLevel.message (e : UnknownLevel) : Text :=
  "Level '".toText ++ e.name ++ "' does not exist".toText

namespace LogSetup

/-- Sets up the log: the sinks that are installed by it, or the level that is unknown, and the
set-up afterwards. -/
def install (setup : LogSetup) (level profile : Text) :
    Except UnknownLevel (List Sink) × LogSetup :=
  let name := level.upper
  if setup.remembered = some (profile, name) then (.ok [], setup)
  else match Level.ofName? name with
    | none => (.error { name }, { setup with sinks := [] })
    | some known =>
      let sink := { kind := .ofProfile profile, level := known }
      (.ok [sink], { sinks := [sink], remembered := some (profile, name) })

def passes (setup : LogSetup) (level : Level) : Bool :=
  setup.sinks.any fun sink => level.reaches sink.level

end LogSetup

end LineShell
