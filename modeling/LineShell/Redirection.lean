import LineShell.Text.Blank

/-!
# Redirections

A redirection sends one of the two output streams of a command to a file.
-/

namespace LineShell

inductive Stream
  | stdout
  | stderr
  deriving Repr, DecidableEq

/-- What happens to the old content of a file that is written. -/
inductive OpenMode
  | truncate
  | append
  deriving Repr, DecidableEq

structure Redirection where
  stream : Stream
  mode : OpenMode
  path : Text
  deriving Repr, DecidableEq

end LineShell
