import LineShell.Shell

/-!
# The session loop

A session prompts and reads until a line asks for its end or the input is used up.  An interrupt at
the prompt only prompts again, and a line that cannot be processed is noted and passed over.
-/

namespace LineShell

inductive ReadEvent
  | text (t : Text)
  | interrupt
  deriving Repr, DecidableEq

inductive Reading
  | line (t : Text)
  | interrupted
  | ended
  deriving Repr, DecidableEq

/-- What a reader makes of the next event, or of the end of the events.  Plain reading takes the
newlines off the end of a line, and an empty text for the end of the input. -/
def Reader.read (reader : Reader) : Option ReadEvent → Reading
  | none => .ended
  | some .interrupt => .interrupted
  | some (.text t) =>
    match reader with
    | .editor => .line t
    | .plain =>
      if t = [] then .ended else .line (t.reverse.dropWhile (· == .char '\n')).reverse

def linesOf : Text → List Text
  | [] => []
  | c :: rest =>
    if c = '\n' then [c] :: linesOf rest
    else match linesOf rest with
      | [] => [[c]]
      | line :: lines => (c :: line) :: lines

@[simp] theorem flatten_linesOf (t : Text) : (linesOf t).flatten = t := by
  induction t with
  | nil => rfl
  | cons c rest ih =>
    by_cases hc : c = '\n'
    · simp [linesOf, hc, ih]
    · rw [linesOf, if_neg hc]
      cases hs : linesOf rest <;> simp_all

structure Loop where
  shell : Shell := {}
  prompt : List Char
  reader : Reader
  deriving Repr, DecidableEq

namespace Loop

/-- Processes a line that was read: whether the session is over, and the session afterwards. -/
def runLine (loop : Loop) (s : Session) (line : Text) : Bool × Session :=
  match loop.shell.runLine s line with
  | (.ok reply, after) => (reply.endsSession, after)
  | (.error failure, after) =>
    (false, { after with machine := after.machine.note (.lineFailed line failure) })

/-- Prompts and reads once: whether the session is over, and the session afterwards. -/
def advance (loop : Loop) (s : Session) (event : Option ReadEvent) : Bool × Session :=
  let prompted := { s with machine := s.machine.promptFor loop.reader loop.prompt }
  match loop.reader.read event with
  | .ended => (true, prompted)
  | .interrupted => (false, prompted)
  | .line t => loop.runLine prompted t

def run (loop : Loop) (s : Session) : List ReadEvent → Session
  | [] => (loop.advance s none).2
  | event :: rest =>
    match loop.advance s (some event) with
    | (true, after) => after
    | (false, after) => loop.run after rest

end Loop

end LineShell
