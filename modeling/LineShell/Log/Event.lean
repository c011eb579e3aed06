import LineShell.Host.Failure
import LineShell.Log.Level
import LineShell.Text.Numeral

/-!
# Log events

What the shell notes about its work.  An event has a level and a message; the event of a line that
could not be processed also carries the failure.
-/

namespace LineShell

/-- Something that the shell notes. -/
inductive LogEvent
  | unresolved (name : Text)
  | launching (name path : Text) (args : List Text)
  | ended (name : Text) (status : Int)
  | launchFailed (name : Text) (failure : Failure)
  | redirectFailed (path : Text) (failure : Failure)
  | lineFailed (line : Text) (failure : Failure)
  deriving Repr, DecidableEq

namespace LogEvent

def level : LogEvent → Level
  | .lineFailed .. => .error
  | _ => .debug

def message : LogEvent → Text
  | .unresolved name => "shell.resolve.missing name=".toText ++ name
  | .launching name path args =>
    "shell.exec name=".toText ++ name ++ " path=".toText ++ path ++ " args=".toText ++
      Quoted.renderList args
  | .ended name status =>
    "shell.exec.done name=".toText ++ name ++ " exit_code=".toText ++
      .ofChars (Numeral.render status)
  | .launchFailed name failure =>
    "shell.exec.failed name=".toText ++ name ++ " error=".toText ++ failure.account
  | .redirectFailed path failure =>
    "shell.redirect.failed path=".toText ++ path ++ " error=".toText ++ failure.account
  | .lineFailed line _ => "shell.line.error line=".toText ++ line

def failure? : LogEvent → Option Failure
  | .lineFailed _ failure => some failure
  | _ => none

end LogEvent

def logAtLeast (threshold : Level) (events : List LogEvent) : List LogEvent :=
  events.filter fun event => event.level.reaches threshold

end LineShell
