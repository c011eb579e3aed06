import LineShell.Settings.History

/-!
# Values of settings

A setting is given as a text, or as a value of some other type when it is given directly.  Reading
it as a flag, a text or a path may fail, and the problem tells whether the type or the text is at
fault.
-/

namespace LineShell

inductive RawValue
  | text (t : Text)
  | flag (b : Bool)
  | integer (n : Int)
  /-- A number with decimal places: `digits` divided by ten to the power `places`. -/
  | decimal (digits : Int) (places : Nat)
  | other
  deriving Repr, DecidableEq

inductive Problem
  /-- The value is a text or a whole number, but none that is a flag. -/
  | unreadableFlag
  /-- A value of this type or size cannot be a flag. -/
  | notFlag
  | notText
  /-- The text holds a lone surrogate. -/
  | notUnicode
  | notPath
  deriving Repr, DecidableEq

namespace RawValue

def falseWords : List Text := ["0", "off", "f", "false", "n", "no"].map String.toText

def trueWords : List Text := ["1", "on", "t", "true", "y", "yes"].map String.toText

/-- Whole numbers below this bound, and not below its negative, count as numbers. -/
def wholeBound : Nat := Nat.pow 2 63

def flagOfWhole (n : Int) : Except Problem Bool :=
  if n = 0 then .ok false
  else if n = 1 then .ok true
  else if -(wholeBound : Int) ≤ n ∧ n < wholeBound then .error .unreadableFlag
  else .error .notFlag

def flagOfDecimal (digits : Int) (places : Nat) : Except Problem Bool :=
  let unit : Int := Nat.pow 10 places
  if digits % unit = 0 ∧ digits / unit ≠ -(wholeBound : Int) then flagOfWhole (digits / unit)
  else .error .notFlag

/-- Reads a flag.  The case of ASCII letters does not matter, and blanks are not trimmed. -/
def toFlag : RawValue → Except Problem Bool
  | .flag b => .ok b
  | .integer n => flagOfWhole n
  | .decimal digits places => flagOfDecimal digits places
  | .text t =>
    let word := t.map (CodePoint.map Char.toLower)
    if word ∈ falseWords then .ok false
    else if word ∈ trueWords then .ok true
    else if t.chars?.isNone then .error .notUnicode
    else .error .unreadableFlag
  | .other => .error .notFlag

def toText : RawValue → Except Problem (List Char)
  | .text t =>
    match t.chars? with
    | some cs => .ok cs
    | none => .error .notUnicode
  | _ => .error .notText

def toPath : RawValue → Except Problem LexicalPath
  | .text t => if t.chars?.isSome then .ok (.ofText t) else .error .notPath
  | _ => .error .notPath

end RawValue

end LineShell
