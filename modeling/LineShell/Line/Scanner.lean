import LineShell.Text.Blank

/-!
# Words of a line

A line is read from left to right.  Outside quotes a blank ends a word and a backslash takes the
next character as it is.  Between single quotes every character stands for itself.  Between double
quotes a backslash takes a backslash or a double quote as it is and otherwise stands for itself.
Quotes begin a word even when nothing stands between them.

The scanner reads one character at a time, and `Scanner.run` composes: reading `a ++ b` is reading
`a` and then `b`.
-/

namespace LineShell

inductive Quote
  | single
  | double
  deriving Repr, DecidableEq

def Quote.char : Quote → Char
  | .single => '\''
  | .double => '"'

inductive LineError
  /-- The line ends inside a quote. -/
  | unterminated (quote : Quote)
  deriving Repr, DecidableEq

def LineError.message : LineError → List Char
  | .unterminated quote =>
    "unexpected EOF while looking for matching `".toList ++ [quote.char, '\'']

/-- Where a scan stands: outside quotes, inside a quote, or right behind a backslash there. -/
inductive ScanMode
  | bare
  | bareEscape
  | single
  | double
  | doubleEscape
  deriving Repr, DecidableEq

def ScanMode.openQuote : ScanMode → Option Quote
  | .bare | .bareEscape => none
  | .single => some .single
  | .double | .doubleEscape => some .double

/-- A scan: where it stands, and the word being read if one has begun. -/
structure Scanner where
  mode : ScanMode
  word : Option Text
  deriving Repr, DecidableEq

namespace Scanner

def start : Scanner := { mode := .bare, word := none }

/-- Adds characters to the word being read, beginning one if none has begun, and goes on in a
mode. -/
def extend (s : Scanner) (chars : Text) (mode : ScanMode) : Scanner :=
  { mode, word := some (s.word.getD [] ++ chars) }

/-- Reads one character: the word that it ends, if it ends one, and the scan after it. -/
def step (s : Scanner) (c : CodePoint) : Option Text × Scanner :=
  match s.mode with
  | .bare =>
    if c = '\\' then (none, { s with mode := .bareEscape })
    else if c = '\'' then (none, s.extend [] .single)
    else if c = '"' then (none, s.extend [] .double)
    else if isBlank c then (s.word, start)
    else (none, s.extend [c] .bare)
  | .bareEscape => (none, s.extend [c] .bare)
  | .single =>
    if c = '\'' then (none, { s with mode := .bare }) else (none, s.extend [c] .single)
  | .double =>
    if c = '\\' then (none, { s with mode := .doubleEscape })
    else if c = '"' then (none, { s with mode := .bare })
    else (none, s.extend [c] .double)
  | .doubleEscape =>
    (none, s.extend (if c = '\\' ∨ c = '"' then [c] else ['\\', c]) .double)

def run : Scanner → Text → List Text × Scanner
  | s, [] => ([], s)
  | s, c :: rest =>
    let (ended, next) := s.step c
    let (words, last) := next.run rest
    (ended.toList ++ words, last)

@[simp] theorem run_nil (s : Scanner) : s.run [] = ([], s) := rfl

theorem run_cons (s : Scanner) (c : CodePoint) (rest : Text) :
    s.run (c :: rest) =
      ((s.step c).1.toList ++ ((s.step c).2.run rest).1, ((s.step c).2.run rest).2) := rfl

/-- The scan of a text goes on behind it where it ended. -/
theorem run_append (s : Scanner) (a b : Text) :
    s.run (a ++ b) =
      ((s.run a).1 ++ ((s.run a).2.run b).1, ((s.run a).2.run b).2) := by
  induction a generalizing s with
  | nil => simp
  | cons c rest ih => simp [run_cons, ih]

end Scanner

/-- The words of a text.  A quote that is still open is closed by the end of the text, and a
backslash right before the end stands for nothing. -/
def wordsOf (t : Text) : List Text :=
  let (words, last) := Scanner.start.run t
  words ++ last.word.toList

/-- The words of a text; when strict, the end of the text may not stand inside a quote. -/
def readWords (strict : Bool) (t : Text) : Except LineError (List Text) :=
  match strict, (Scanner.start.run t).2.mode.openQuote with
  | true, some quote => .error (.unterminated quote)
  | _, _ => .ok (wordsOf t)

@[simp] theorem readWords_false (t : Text) : readWords false t = .ok (wordsOf t) := rfl

end LineShell
