import LineShell.Host.Basic

/-!
# History of lines

A line editor keeps the lines it has read in memory or in a file.  The path of the file is kept in
a normal form that is found without looking at the host: components that are empty or a dot are
dropped, and a double dot stays.  A tilde at the front of the path names a home directory: a lone
tilde the one of the environment, and a tilde with a name behind it the one of a user, of whom none
is known.
-/

namespace LineShell

/-- A written path in normal form: the number of slashes it begins with, and its components. -/
structure LexicalPath where
  slashes : Nat
  parts : List Text
  deriving Repr, DecidableEq

/-- Why a home directory is not found. -/
inductive HomeError
  /-- Nothing tells where it is. -/
  | undetermined
  /-- The user database cannot be asked for the name. -/
  | unaskable (failure : Failure)
  deriving Repr, DecidableEq

def HomeError.message : HomeError → Text
  | .undetermined => "Could not determine home directory.".toText
  | .unaskable failure => failure.reason

namespace LexicalPath

/-- The normal form of a written path.  Exactly two slashes at the front stay two, and more count
as one. -/
def ofText (t : Text) : LexicalPath :=
  let slashes := (t.takeWhile (· == .char '/')).length
  { slashes := if slashes = 2 then 2 else min slashes 1
    parts := (splitOn (.char '/') t).filter fun part => part ≠ [] ∧ part ≠ ".".toText }

def render (p : LexicalPath) : Text :=
  if p.slashes = 0 ∧ p.parts = [] then ".".toText
  else List.replicate p.slashes (.char '/') ++ joinWith "/".toText p.parts

def ofHome (home : Text) : LexicalPath :=
  match (home.reverse.dropWhile (· == .char '/')).reverse with
  | [] => { slashes := 1, parts := [] }
  | kept => ofText kept

/-- The home directory of the environment.  One that begins with a tilde itself is none. -/
def homeDirectory (env : Environment) : Except HomeError LexicalPath :=
  match env.get? "HOME".toText with
  | none => .error .undetermined
  | some home => if home.head? = some '~' then .error .undetermined else .ok (ofHome home)

def homeOf (env : Environment) (name : Text) : Except HomeError LexicalPath :=
  if name = "~".toText then homeDirectory env
  else match Text.toSystem (name.drop 1) with
    | .error failure => .error (.unaskable failure)
    | .ok _ => .error .undetermined

def expandHome (env : Environment) (p : LexicalPath) : Except HomeError LexicalPath :=
  match p.parts with
  | [] => .ok p
  | first :: rest =>
    if p.slashes = 0 ∧ first.head? = some '~' then
      match homeOf env first with
      | .error error => .error error
      | .ok home => .ok { home with parts := home.parts ++ rest }
    else .ok p

end LexicalPath

inductive History
  | memory
  | file (path : Text)
  deriving Repr, DecidableEq

def History.ofSetting (env : Environment) : Option LexicalPath → Except HomeError History
  | none => .ok .memory
  | some p => (p.expandHome env).map fun expanded => .file expanded.render

end LineShell
