import LineShell.Redirection
import LineShell.Text.Utf8

/-!
# The terminal

What is written to the terminal, in order.  A byte stream takes the bytes as they are; a text
stream takes the text that each buffer decodes to by itself.  Prompts are kept apart from output:
plain reading writes them to the output stream, and the line editor shows them itself.

`Terminal.transcript` is what an observer sees: neighbouring writes to one place are joined, and
empty ones do not show.
-/

namespace LineShell

/-- How lines are read: by a line editor at a terminal, or plainly from a stream. -/
inductive Reader
  | editor
  | plain
  deriving Repr, DecidableEq

inductive StreamKind
  | bytes
  | text
  deriving Repr, DecidableEq

inductive Chunk
  | bytes (data : Bytes)
  | text (data : List Char)
  deriving Repr, DecidableEq

namespace Chunk

def ofBytes : StreamKind → Bytes → Chunk
  | .bytes, data => .bytes data
  | .text, data => .text (Utf8.decode data)

def ofText : StreamKind → List Char → Chunk
  | .bytes, t => .bytes (Utf8.encode t)
  | .text, t => .text t

def isEmpty : Chunk → Bool
  | .bytes data => data.isEmpty
  | .text data => data.isEmpty

def toBytes : Chunk → Bytes
  | .bytes data => data
  | .text data => Utf8.encode data

def append : Chunk → Chunk → Chunk
  | .text a, .text b => .text (a ++ b)
  | a, b => .bytes (a.toBytes ++ b.toBytes)

end Chunk

inductive Write
  /-- Output of a command, or a diagnostic. -/
  | data (stream : Stream) (chunk : Chunk)
  /-- The prompt of a reader. -/
  | prompt (reader : Reader) (text : List Char)
  deriving Repr, DecidableEq

/-- The streams of a terminal and what was written to them, the oldest write first. -/
structure Terminal where
  kind : StreamKind := .bytes
  writes : List Write := []
  deriving Repr, DecidableEq

inductive Place
  | out
  | err
  | prompt
  deriving Repr, DecidableEq

structure Shown where
  place : Place
  chunk : Chunk
  deriving Repr, DecidableEq

def Write.shown (kind : StreamKind) : Write → Shown
  | .data .stdout chunk => { place := .out, chunk }
  | .data .stderr chunk => { place := .err, chunk }
  | .prompt .plain t => { place := .out, chunk := .ofText kind t }
  | .prompt .editor t => { place := .prompt, chunk := .text t }

def Write.isData : Write → Bool
  | .data .. => true
  | .prompt .. => false

/-- Puts something in front of what shows, joining it with a neighbour at the same place. -/
def Shown.joinFront (first : Shown) : List Shown → List Shown
  | [] => [first]
  | next :: rest =>
    if first.place = next.place then
      { place := first.place, chunk := first.chunk.append next.chunk } :: rest
    else first :: next :: rest

namespace Terminal

def print (terminal : Terminal) (stream : Stream) (data : Bytes) : Terminal :=
  if data = [] then terminal
  else { terminal with
         writes := terminal.writes ++ [.data stream (.ofBytes terminal.kind data)] }

def promptFor (terminal : Terminal) (reader : Reader) (text : List Char) : Terminal :=
  { terminal with writes := terminal.writes ++ [.prompt reader text] }

/-- What an observer sees. -/
def transcript (terminal : Terminal) : List Shown :=
  ((terminal.writes.map (Write.shown terminal.kind)).filter fun s => !s.chunk.isEmpty).foldr
    Shown.joinFront []

@[simp] theorem print_nil (terminal : Terminal) (stream : Stream) :
    terminal.print stream [] = terminal := by
  simp [print]

end Terminal

end LineShell
