import LineShell.Machine

/-!
# Delivery of output

The two output buffers of a command go to the terminal, the error buffer first, or one of them goes
to a file and the other to the terminal.  A buffer that is not empty is ended by a newline.  When
the file cannot be written, a diagnostic takes the place of what was to go there; and when the
diagnostic has no bytes, delivery breaks off.
-/

namespace LineShell

def newlineByte : UInt8 := 10

/-- Ends a buffer that is not empty with a newline, if it does not end with one. -/
def withNewline (data : Bytes) : Bytes :=
  if data = [] ∨ data.getLast? = some newlineByte then data else data ++ [newlineByte]

def shellName : List Char := "myshell".toList

def diagnostic (t : Text) : Text := .ofChars shellName ++ ": ".toText ++ t ++ "\n".toText

namespace Machine

/-- Writes a buffer to the file of a redirection, or tells why it could not be written: what kept it
from being told, if anything did, and the machine afterwards. -/
def redirect (m : Machine) (r : Redirection) (data : Bytes) : Option Failure × Machine :=
  match m.toHost.writeFile r.mode r.path data with
  | (none, host) => (none, { m with toHost := host })
  | (some failure, host) =>
    let noted := ({ m with toHost := host } : Machine).note (.redirectFailed r.path failure)
    match (diagnostic (r.path ++ ": ".toText ++ failure.reason)).encode with
    | .ok complaint => (none, noted.print .stderr complaint)
    | .error fault => (some fault, noted)

/-- Delivers one buffer to a file and the other one, behind it, to a stream of the terminal. -/
def deliverApart (m : Machine) (r : Redirection) (data : Bytes) (stream : Stream) (other : Bytes) :
    Option Failure × Machine :=
  match m.redirect r data with
  | (none, told) => (none, told.print stream other)
  | (some fault, left) => (some fault, left)

/-- Delivers the two output buffers of a command: what broke delivery off, if anything did, and the
machine afterwards. -/
def deliver (m : Machine) (stdout stderr : Bytes) :
    Option Redirection → Option Failure × Machine
  | none => (none, (m.print .stderr (withNewline stderr)).print .stdout (withNewline stdout))
  | some r =>
    match r.stream with
    | .stdout => m.deliverApart r (withNewline stdout) .stderr (withNewline stderr)
    | .stderr => m.deliverApart r (withNewline stderr) .stdout (withNewline stdout)

end Machine

/-- A buffer ended by a newline is empty or has the newline at its end. -/
theorem withNewline_ends (data : Bytes) :
    withNewline data = [] ∨ (withNewline data).getLast? = some newlineByte := by
  unfold withNewline
  split
  · assumption
  · right; simp

@[simp] theorem withNewline_withNewline (data : Bytes) :
    withNewline (withNewline data) = withNewline data := by
  rw [withNewline.eq_1 (withNewline data), if_pos (withNewline_ends data)]

end LineShell
