import LineShell.Text.DecimalDigit

/-!
# Decimal numerals

A numeral is an optional sign and decimal digits of any set, with single underscores allowed
between two digits.  Blanks may stand around it, and it has at most 4300 digits.
-/

namespace LineShell

namespace Numeral

def maxDigits : Nat := 4300

/-- Blanks that may stand around a numeral: all of them but the separators U+001C to U+001F. -/
def isPadding (c : CodePoint) : Bool := isBlank c && !inRanges [(0x1C, 0x1F)] c.toNat

def digitsAfter : Text → Option (List Nat)
  | [] => some []
  | c :: rest =>
    if c = '_' then
      match rest with
      | [] => none
      | d :: rest => do
        let value ← digitValue? d
        let values ← digitsAfter rest
        return value :: values
    else do
      let value ← digitValue? c
      let values ← digitsAfter rest
      return value :: values

def digits? : Text → Option (List Nat)
  | [] => none
  | c :: rest => do
    let value ← digitValue? c
    let values ← digitsAfter rest
    return value :: values

def value (digits : List Nat) : Nat := digits.foldl (fun n d => 10 * n + d) 0

def magnitude? (t : Text) : Option Nat := do
  let digits ← digits? t
  if digits.length ≤ maxDigits then some (value digits) else none

def signed? : Text → Option Int
  | [] => none
  | c :: rest =>
    if c = '-' then (magnitude? rest).map fun n => -(n : Int)
    else if c = '+' then (magnitude? rest).map fun n => (n : Int)
    else (magnitude? (c :: rest)).map fun n => (n : Int)

def parse? (t : Text) : Option Int :=
  signed? ((t.dropWhile isPadding).reverse.dropWhile isPadding).reverse

def render (n : Int) : List Char :=
  if n < 0 then '-' :: Nat.toDigits 10 n.natAbs else Nat.toDigits 10 n.natAbs

end Numeral

end LineShell
