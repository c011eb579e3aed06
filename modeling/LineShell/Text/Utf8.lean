import LineShell.Text.CodePoint

/-!
# Bytes of characters

Characters are stored and shown as UTF-8.  Every byte string can be read back: it falls into
characters and ill-formed parts.  An ill-formed part is the longest beginning of a character that
cannot go on, or a single byte that begins none.
-/

namespace LineShell

abbrev Bytes := List UInt8

namespace Utf8

def encode (cs : List Char) : Bytes := cs.flatMap String.utf8EncodeChar

inductive Part
  | char (c : Char)
  | illFormed (bytes : Bytes)
  deriving Repr, DecidableEq

/-- A character that has been begun: its bytes so far and the bits in them, how many bytes it still
wants, and the closed range in which the next one lies. -/
structure Begun where
  seen : Bytes
  wants : Nat
  bits : Nat
  low : Nat := 0x80
  high : Nat := 0xBF
  deriving Repr, DecidableEq

/-- What a byte comes to that continues no character: the parts that are complete with it, and the
character it begins.  The ranges exclude overlong forms, surrogates and codes above U+10FFFF. -/
def lead (b : Nat) : List Part × Option Begun :=
  let seen := [UInt8.ofNat b]
  if b < 0x80 then ([.char (Char.ofNat b)], none)
  else if b < 0xC2 then ([.illFormed seen], none)
  else if b < 0xE0 then ([], some { seen, wants := 1, bits := b % 0x20 })
  else if b < 0xF0 then
    ([], some { seen, wants := 2, bits := b % 0x10
                low := if b = 0xE0 then 0xA0 else 0x80
                high := if b = 0xED then 0x9F else 0xBF })
  else if b < 0xF5 then
    ([], some { seen, wants := 3, bits := b % 0x08
                low := if b = 0xF0 then 0x90 else 0x80
                high := if b = 0xF4 then 0x8F else 0xBF })
  else ([.illFormed seen], none)

def step : Option Begun → Nat → List Part × Option Begun
  | none, b => lead b
  | some begun, b =>
    if begun.low ≤ b && b ≤ begun.high then
      let bits := begun.bits * 0x40 + b % 0x40
      if begun.wants ≤ 1 then ([.char (Char.ofNat bits)], none)
      else ([], some { seen := begun.seen ++ [UInt8.ofNat b], wants := begun.wants - 1, bits })
    else
      let (parts, next) := lead b
      (.illFormed begun.seen :: parts, next)

/-- The parts of the bytes that follow a begun character, with that character. -/
def partsAfter : Option Begun → Bytes → List Part
  | none, [] => []
  | some begun, [] => [.illFormed begun.seen]
  | begun, byte :: rest =>
    let (parts, next) := step begun byte.toNat
    parts ++ partsAfter next rest

def parts (bytes : Bytes) : List Part := partsAfter none bytes

def replacement : Char := Char.ofNat 0xFFFD

def Part.replaced : Part → Char
  | .char c => c
  | .illFormed _ => replacement

/-- The characters of a byte string, one replacement character for every ill-formed part. -/
def decode (bytes : Bytes) : List Char := (parts bytes).map Part.replaced

@[simp] theorem encode_append (cs ds : List Char) : encode (cs ++ ds) = encode cs ++ encode ds := by
  simp [encode]

@[simp] theorem encode_nil : encode [] = [] := rfl

end Utf8

end LineShell

def String.toBytes (s : String) : LineShell.Bytes := LineShell.Utf8.encode s.toList
