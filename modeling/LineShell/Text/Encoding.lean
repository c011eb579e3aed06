import LineShell.Text.Utf8

/-!
# Bytes of a text

A text is written out as UTF-8, in which a lone surrogate has no bytes.  The operating system takes
and gives byte strings, and there a byte that is no part of a character is one of the surrogates
U+DC80 to U+DCFF; every other lone surrogate has no byte there either.
-/

namespace LineShell

/-- The lone surrogates at which encoding stops: the first of them, its place in the text, and the
place behind the last. -/
structure Unencodable where
  first : Fin 0x800
  start : Nat
  stop : Nat
  deriving Repr, DecidableEq

def CodePoint.ofByte (b : UInt8) : CodePoint := .surrogate (Fin.ofNat 0x800 (0x400 + b.toNat))

def escapedByte? (n : Fin 0x800) : Option UInt8 :=
  if 0x480 ≤ n.val ∧ n.val < 0x500 then some (UInt8.ofNat (n.val - 0x400)) else none

def Utf8.Part.toText : Utf8.Part → Text
  | .char c => [.char c]
  | .illFormed bytes => bytes.map CodePoint.ofByte

namespace Text

/-- The bytes of a text that begins at a place, with the bytes that surrogates have. -/
def encodeWith (byte? : Fin 0x800 → Option UInt8) (place : Nat) : Text → Except Unencodable Bytes
  | [] => .ok []
  | .char c :: rest => (encodeWith byte? (place + 1) rest).map (String.utf8EncodeChar c ++ ·)
  | .surrogate n :: rest =>
    match byte? n with
    | some b => (encodeWith byte? (place + 1) rest).map (b :: ·)
    | none =>
      .error { first := n, start := place
               stop := place + 1 + (rest.takeWhile CodePoint.isSurrogate).length }

def ofSystem (bytes : Bytes) : Text := (Utf8.parts bytes).flatMap Utf8.Part.toText

end Text

end LineShell
