import LineShell.Text.Encoding
import LineShell.Text.Quoted

/-!
# Failures of the operating system

Why an operation did not succeed.  Most failures carry a numbered error.  A text that holds the NUL
character or has no bytes is refused before the operating system is asked, and a text without bytes
cannot be shown either.  A program may fail to start with nothing but a text.
-/

namespace LineShell

/-- The numbered errors of the operating system. -/
inductive Errno
  | notPermitted
  | noEntry
  | inputOutput
  | execFormat
  | accessDenied
  | notDirectory
  | isDirectory
  | tooManyFiles
  | textBusy
  | noSpace
  | readOnly
  | nameTooLong
  | linkLoop
  | quotaExceeded
  deriving Repr, DecidableEq

def Errno.number : Errno → Nat
  | .notPermitted => 1
  | .noEntry => 2
  | .inputOutput => 5
  | .execFormat => 8
  | .accessDenied => 13
  | .notDirectory => 20
  | .isDirectory => 21
  | .tooManyFiles => 24
  | .textBusy => 26
  | .noSpace => 28
  | .readOnly => 30
  | .nameTooLong => 36
  | .linkLoop => 40
  | .quotaExceeded => 122

def Errno.reason : Errno → Text
  | .notPermitted => "Operation not permitted".toText
  | .noEntry => "No such file or directory".toText
  | .inputOutput => "Input/output error".toText
  | .execFormat => "Exec format error".toText
  | .accessDenied => "Permission denied".toText
  | .notDirectory => "Not a directory".toText
  | .isDirectory => "Is a directory".toText
  | .tooManyFiles => "Too many open files".toText
  | .textBusy => "Text file busy".toText
  | .noSpace => "No space left on device".toText
  | .readOnly => "Read-only file system".toText
  | .nameTooLong => "File name too long".toText
  | .linkLoop => "Too many levels of symbolic links".toText
  | .quotaExceeded => "Disk quota exceeded".toText

inductive Failure
  | system (error : Errno) (path : Text)
  /-- A path or an argument holds the NUL character. -/
  | embeddedNul
  | unencodable (fault : Unencodable)
  /-- The operating system refuses with a text and no number. -/
  | unnumbered (text : Text)
  /-- A program could not be launched, for a reason outside the operating system. -/
  | launcher (text : Text)
  deriving Repr, DecidableEq

def Unencodable.message (fault : Unencodable) : Text :=
  let place :=
    if fault.stop = fault.start + 1 then
      "character '".toText ++ .ofChars (Quoted.numbered (.surrogate fault.first)) ++
        "' in position ".toText ++ .ofChars (Nat.toDigits 10 fault.start)
    else
      "characters in position ".toText ++ .ofChars (Nat.toDigits 10 fault.start) ++ "-".toText ++
        .ofChars (Nat.toDigits 10 (fault.stop - 1))
  "'utf-8' codec can't encode ".toText ++ place ++ ": surrogates not allowed".toText

def Failure.reason : Failure → Text
  | .system error _ => error.reason
  | .embeddedNul => "embedded null byte".toText
  | .unencodable fault => fault.message
  | .unnumbered text => text
  | .launcher text => text

def Failure.account : Failure → Text
  | .system error path =>
    "[Errno ".toText ++ .ofChars (Nat.toDigits 10 error.number) ++ "] ".toText ++ error.reason ++
      ": ".toText ++ Quoted.render path
  | .embeddedNul => "embedded null byte".toText
  | .unencodable fault => fault.message
  | .unnumbered text => text
  | .launcher text => text

/-- Is the failure an answer of the operating system?  The others are met before it is asked. -/
def Failure.isAnswer : Failure → Bool
  | .embeddedNul | .unencodable _ => false
  | .system .. | .unnumbered _ | .launcher _ => true

/-- The character that no path and no argument may hold. -/
def nul : Char := Char.ofNat 0

namespace Text

/-- The bytes of a text that is written out. -/
def encode (t : Text) : Except Failure Bytes :=
  (t.encodeWith (fun _ => none) 0).mapError .unencodable

/-- The bytes of a text that is given to the operating system. -/
def toSystem (t : Text) : Except Failure Bytes :=
  match t.encodeWith escapedByte? 0 with
  | .error fault => .error (.unencodable fault)
  | .ok bytes => if .char nul ∈ t then .error .embeddedNul else .ok bytes

end Text

end LineShell
