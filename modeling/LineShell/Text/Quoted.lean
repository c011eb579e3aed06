import LineShell.Text.Printable
import LineShell.Text.Split

/-!
# Quoted text

How texts appear in records: between quotes, with a backslash before a quote of the same kind and
before a backslash, and with escapes for what is not printable.  A text is put between single
quotes unless it holds one and no double quote.  `Quoted.showControls` is the lighter form that only
makes control characters visible.
-/

namespace LineShell

namespace Quoted

def hexDigits : Nat → Nat → List Char
  | 0, _ => []
  | width + 1, n => hexDigits width (n / 16) ++ [Nat.digitChar (n % 16)]

def mark (t : Text) : Char := if .char '\'' ∈ t ∧ .char '"' ∉ t then '"' else '\''

def numbered (c : CodePoint) : List Char :=
  if c.toNat < 0x100 then '\\' :: 'x' :: hexDigits 2 c.toNat
  else if c.toNat < 0x10000 then '\\' :: 'u' :: hexDigits 4 c.toNat
  else '\\' :: 'U' :: hexDigits 8 c.toNat

def escape (quote : Char) (c : CodePoint) : Text :=
  if c = quote ∨ c = '\\' then ['\\', c]
  else if c = '\n' then "\\n".toText
  else if c = '\r' then "\\r".toText
  else if c = '\t' then "\\t".toText
  else if isPrintable c then [c]
  else .ofChars (numbered c)

def render (t : Text) : Text :=
  .char (mark t) :: t.flatMap (escape (mark t)) ++ [.char (mark t)]

def renderList (ts : List Text) : Text :=
  "[".toText ++ joinWith ", ".toText (ts.map render) ++ "]".toText

def isControl (c : CodePoint) : Bool := inRanges [(0, 0x1F), (0x7F, 0x9F)] c.toNat

def showControls (t : Text) : Text :=
  t.flatMap fun c => if isControl c then Text.ofChars (numbered c) else [c]

def showSurrogates (t : Text) : List Char :=
  t.flatMap fun
    | .char c => [c]
    | .surrogate n => numbered (.surrogate n)

end Quoted

end LineShell
