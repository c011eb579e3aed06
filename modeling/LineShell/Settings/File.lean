import LineShell.Host.Basic
import LineShell.Settings.Reference

/-!
# Settings files

A settings file holds lines `NAME=value`.  A line may begin with the word `export`; blanks around
the equals sign and at the end of a line do not count; a number sign begins a comment at the start
of a line and after a blank.  A value between quotes may span lines, and some escapes are undone in
it.  What is malformed is skipped up to the end of its line.  References in a value are replaced
after it has been read.
-/

namespace LineShell

structure Binding where
  name : Text
  value : Option Text
  deriving Repr, DecidableEq

inductive Statement
  | binding (b : Binding)
  /-- A statement that cannot be read, with the number of the line on which it begins. -/
  | malformed (line : Nat)
  deriving Repr, DecidableEq

namespace SettingsFile

def byteOrderMark : Char := Char.ofNat 0xFEFF

def dropMark (t : Text) : Text := if t.head? = some byteOrderMark then t.drop 1 else t

def unifyNewlines : Text → Text
  | [] => []
  | c :: rest =>
    if c = '\r' then
      match rest with
      | .char '\n' :: rest => '\n' :: unifyNewlines rest
      | rest => '\n' :: unifyNewlines rest
    else c :: unifyNewlines rest

/-- A blank that does not end a line. -/
def isInlineBlank (c : CodePoint) : Bool := isBlank c && c != '\n'

def skipBlanks (t : Text) : Text := t.dropWhile isInlineBlank

def skipLine (t : Text) : Text := (t.dropWhile (· != .char '\n')).drop 1

def skipExport (t : Text) : Text :=
  let word := "export".toText
  if word.isPrefixOf t && (t.drop word.length).head?.any isInlineBlank then
    skipBlanks (t.drop word.length)
  else t

def isNameChar (c : CodePoint) : Bool := c != '=' && c != '#' && !isBlank c

def readName (t : Text) : Option (Text × Text) :=
  match t with
  | .char '\'' :: rest =>
    let name := rest.takeWhile (· != .char '\'')
    match rest.dropWhile (· != .char '\'') with
    | [] => none
    | _ :: after => if name = [] then none else some (name, after)
  | _ =>
    let name := t.takeWhile isNameChar
    if name = [] then none else some (name, t.dropWhile isNameChar)

/-- Reads up to the quote that closes a value: the first one that no backslash takes. -/
def readQuoted (quote : CodePoint) : Text → Option (Text × Text)
  | [] => none
  | c :: rest =>
    if c = quote then some ([], rest)
    else if c = '\\' then
      match rest with
      | [] => none
      | d :: after => (readQuoted quote after).map fun (value, behind) => (c :: d :: value, behind)
    else (readQuoted quote rest).map fun (value, behind) => (c :: value, behind)

/-- Undoes the escapes that are known and leaves the others. -/
def unescape (known : CodePoint → Option CodePoint) : Text → Text
  | [] => []
  | c :: rest =>
    match rest with
    | [] => [c]
    | d :: after =>
      match (if c = '\\' then known d else none) with
      | some e => e :: unescape known after
      | none => c :: unescape known (d :: after)

def singleEscape (c : CodePoint) : Option CodePoint :=
  if c = '\\' ∨ c = '\'' then some c else none

def doubleEscape (c : CodePoint) : Option CodePoint :=
  if c = '\\' ∨ c = '\'' ∨ c = '"' then some c
  else if c = 'a' then some (Char.ofNat 7)
  else if c = 'b' then some (Char.ofNat 8)
  else if c = 'f' then some (Char.ofNat 12)
  else if c = 'n' then some '\n'
  else if c = 'r' then some '\r'
  else if c = 't' then some '\t'
  else if c = 'v' then some (Char.ofNat 11)
  else none

def cutComment : Text → Text
  | [] => []
  | c :: rest => if isBlank c && rest.head? == some '#' then [] else c :: cutComment rest

def readPlain (t : Text) : Text × Text :=
  (Text.trim (cutComment (t.takeWhile (· != .char '\n'))), t.dropWhile (· != .char '\n'))

def readValue (t : Text) : Option (Text × Text) :=
  match skipBlanks t with
  | .char '\'' :: rest =>
    (readQuoted '\'' rest).map fun (v, after) => (unescape singleEscape v, after)
  | .char '"' :: rest =>
    (readQuoted '"' rest).map fun (v, after) => (unescape doubleEscape v, after)
  | _ => some (readPlain t)

/-- What stands behind a line of which nothing but a comment is left. -/
def endLine (t : Text) : Option Text :=
  match skipBlanks t with
  | [] => some []
  | .char '\n' :: rest => some rest
  | .char '#' :: rest => some (skipLine rest)
  | _ => none

def readBinding (t : Text) : Except Text (Binding × Text) :=
  let start := skipExport t
  match readName start with
  | none => .error start
  | some (name, after) =>
    match skipBlanks after with
    | .char '=' :: rest =>
      match readValue rest with
      | none => .error rest
      | some (value, behind) =>
        match endLine behind with
        | none => .error behind
        | some next => .ok ({ name, value := some value }, next)
    | behind =>
      match endLine behind with
      | none => .error behind
      | some next => .ok ({ name, value := none }, next)

/-- The statements of a text whose lines end with single newlines, the first of them on a line of
the given number.  Blank lines belong to the statement behind them. -/
def statementsFrom (line : Nat) (t : Text) : List Statement :=
  match t.dropWhile isBlank with
  | [] => []
  | c :: rest =>
    let (found, next) :=
      if (skipExport (c :: rest)).head? = some '#' then ([], skipLine (c :: rest))
      else match readBinding (c :: rest) with
        | .ok (b, next) => ([.binding b], next)
        | .error stuck => ([.malformed line], skipLine stuck)
    if next.length < t.length then
      found ++ statementsFrom (line + (t.count (.char '\n') - next.count (.char '\n'))) next
    else found
termination_by t.length

def statements (t : Text) : List Statement := statementsFrom 1 (unifyNewlines (dropMark t))

def malformedLines (t : Text) : List Nat :=
  (statements t).filterMap fun
    | .binding _ => none
    | .malformed line => some line

/-- Puts a binding in the place of an earlier one of the same name, or at the end. -/
def put (b : Binding) : List Binding → List Binding
  | [] => [b]
  | a :: rest => if a.name = b.name then b :: rest else a :: put b rest

def complaint (line : Nat) : List Char :=
  "python-dotenv could not parse statement starting at line ".toList ++ Nat.toDigits 10 line ++
    ['\n']

/-- What a reference stands for: the value of the last earlier binding of the name, even if it gave
none, or else what the environment holds. -/
def valueOf (env : Environment) (earlier : List Binding) (r : Reference) : Text :=
  match earlier.find? fun b => b.name == r.name with
  | some b => b.value.getD []
  | none => (env.get? r.name).getD r.fallback

def resolve (env : Environment) (bs : List Binding) : List Binding :=
  bs.foldl (fun earlier b =>
    put { b with value := b.value.map (Reference.expand (valueOf env earlier)) } earlier) []

def bindings (env : Environment) (t : Text) : List Binding :=
  resolve env ((statements t).filterMap fun
    | .binding b => some b
    | .malformed _ => none)

end SettingsFile

end LineShell
