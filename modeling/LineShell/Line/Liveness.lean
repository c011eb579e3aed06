import LineShell.Line.Scanner

/-!
# Live characters

A character of a line is live when it stands outside quotes, is not escaped, and is neither a quote
nor a backslash.  Only live characters can spell a redirection operator.
-/

namespace LineShell

/-- What decides whether the next character is live: the quote that is open, and whether a
backslash stands right before it. -/
structure Guard where
  quote : Option Quote := none
  escaped : Bool := false
  deriving Repr, DecidableEq

namespace Guard

def admits (g : Guard) (c : CodePoint) : Bool :=
  !g.escaped && g.quote.isNone && c != '\\' && c != '\'' && c != '"'

def next (g : Guard) (c : CodePoint) : Guard :=
  if g.escaped then { g with escaped := false }
  else match g.quote with
    | some .single => if c = '\'' then {} else g
    | some .double =>
      if c = '\\' then { g with escaped := true }
      else if c = '"' then {}
      else g
    | none =>
      if c = '\\' then { escaped := true }
      else if c = '\'' then { quote := some .single }
      else if c = '"' then { quote := some .double }
      else g

def marks : Guard → Text → List Bool
  | _, [] => []
  | g, c :: rest => g.admits c :: (g.next c).marks rest

@[simp] theorem length_marks (g : Guard) (t : Text) : (g.marks t).length = t.length := by
  induction t generalizing g with
  | nil => rfl
  | cons c rest ih => simp [marks, ih]

end Guard

/-- For each character of a line: is it live? -/
def liveMarks (line : Text) : List Bool := Guard.marks {} line

end LineShell
