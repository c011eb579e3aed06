import LineShell.Host.Basic

/-!
# Search for programs

A name without a slash is looked up in the directories of the search path, in order; a name with a
slash is a path of its own.
-/

namespace LineShell

inductive SearchPath
  /-- The variable `PATH`, read at every use. -/
  | environment
  | fixed (directories : List Text)
  deriving Repr, DecidableEq

namespace SearchPath

/-- The directories in the value of a search path variable: what stands between colons and is not
empty. -/
def ofVariable (value : Text) : List Text := (splitOn (.char ':') value).filter (· ≠ [])

def ofEnvironment (env : Environment) : List Text := ofVariable (env.getD "PATH".toText)

def directories (env : Environment) : SearchPath → List Text
  | .environment => ofEnvironment env
  | .fixed directories => directories

end SearchPath

/-- The path of a name in a directory; slashes at the end of the directory do not count. -/
def pathIn (directory name : Text) : Text :=
  (directory.reverse.dropWhile (· == .char '/')).reverse ++ .char '/' :: name

def Host.findProgram (host : Host) (directories : List Text) (name : Text) : Option Text :=
  if name = [] then none
  else if .char '/' ∈ name then if host.isExecutable name then some name else none
  else (directories.map (pathIn · name)).find? host.isExecutable

end LineShell
