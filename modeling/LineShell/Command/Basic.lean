import LineShell.Command.Builtin

/-!
# Commands

The words of a line make a command: a builtin, a program on the search path, or a name that stands
for nothing.
-/

namespace LineShell

/-- What the words of a line stand for. -/
inductive Command
  | builtin (builtin : Builtin) (args : List Text)
  | external (name path : Text) (args : List Text)
  | notFound (name : Text) (args : List Text)
  deriving Repr, DecidableEq

namespace Command

def name : Command → Text
  | .builtin b _ => b.name
  | .external name _ _ => name
  | .notFound name _ => name

def args : Command → List Text
  | .builtin _ args => args
  | .external _ _ args => args
  | .notFound _ args => args

def path? : Command → Option Text
  | .external _ path _ => some path
  | _ => none

def isExit : Command → Bool
  | .builtin .exit _ => true
  | _ => false

/-- The command that words make; builtins come before programs. -/
def ofWords? (host : Host) (directories : List Text) : List Text → Option Command
  | [] => none
  | name :: args =>
    match Builtin.ofName? name with
    | some b => some (.builtin b args)
    | none =>
      match host.findProgram directories name with
      | some path => some (.external name path args)
      | none => some (.notFound name args)

end Command

end LineShell
