import LineShell.Host.FileTree
import LineShell.Redirection

/-!
# The host

The host is what the shell runs on: a file tree, a working directory, the environment, and a record
of the programs that were started.  A path is written as a text, and the host walks its bytes name
by name from the root or from the working directory.  Operations that fail leave the host as it was,
with one exception: a write that fails comes after the file has been created or truncated.
-/

namespace LineShell

abbrev Environment := List (Text × Text)

namespace Environment

def get? (env : Environment) (name : Text) : Option Text :=
  (env.find? fun entry => entry.1 == name).map Prod.snd

def getD (env : Environment) (name : Text) : Text := (env.get? name).getD []

def unset (env : Environment) (name : Text) : Environment :=
  env.filter fun entry => entry.1 != name

def set (env : Environment) (name value : Text) : Environment :=
  env.unset name ++ [(name, value)]

/-- A variable that was removed has no value, and the others keep theirs. -/
theorem get?_unset (env : Environment) (name other : Text) :
    (env.unset name).get? other = if other = name then none else env.get? other := by
  simp only [get?, unset, List.find?_filter]
  split
  · next h => subst h; simp
  · next h =>
    congr 2
    funext entry
    by_cases he : entry.1 = other
    · simp [he, h]
    · simp [he]

/-- A variable that was set has its value, and the others keep theirs. -/
theorem get?_set (env : Environment) (name value other : Text) :
    (env.set name value).get? other = if other = name then some value else env.get? other := by
  have h := get?_unset env name other
  simp only [get?] at h
  simp only [get?, set, List.find?_append]
  split
  · next ho =>
    subst ho
    rw [if_pos rfl, Option.map_eq_none_iff] at h
    rw [h]
    simp
  · next ho =>
    rw [if_neg ho] at h
    have hne : (name == other) = false := by simpa using Ne.symm ho
    simp [hne, ← h]

end Environment

structure Start where
  executable : Text
  argv : List Text
  directory : Path
  deriving Repr, DecidableEq

structure Host where
  tree : FileTree
  directory : Path
  env : Environment
  started : List Start := []
  deriving Repr, DecidableEq

inductive Destination
  /-- A node that is there. -/
  | node (path : Path)
  /-- A name that is free in a directory that is there. -/
  | vacant (path : Path)
  deriving Repr, DecidableEq

def maxPathBytes : Nat := 4095

def maxNameBytes : Nat := 255

namespace FileTree

/-- Walks names from a node.  When a file may be created, the last name may be free, and then it
has to name a file. -/
def walk (tree : FileTree) (create trailingSlash : Bool) (path : Path) :
    List Name → Except Errno Destination
  | [] => .ok (.node path)
  | name :: rest =>
    if !tree.isDirectory path then .error .notDirectory
    else if create && rest.isEmpty && (trailingSlash || name == Name.dot || name == Name.dots) then
      .error .isDirectory
    else if name = Name.dot then tree.walk create trailingSlash path rest
    else if name = Name.dots then tree.walk create trailingSlash path.dropLast rest
    else if maxNameBytes < name.length then .error .nameTooLong
    else if (tree.find? (path ++ [name])).isSome then
      tree.walk create trailingSlash (path ++ [name]) rest
    else if create && rest.isEmpty then
      match (tree.find? path).bind fun node => node.faults.onCreate with
      | some error => .error error
      | none => .ok (.vacant (path ++ [name]))
    else .error .noEntry

end FileTree

namespace Host

def origin (host : Host) (path : Bytes) : Path :=
  if path.head? = some slash then [] else host.directory

def locate (host : Host) (create : Bool) (path : Bytes) : Except Errno Destination :=
  if path = [] then .error .noEntry
  else if maxPathBytes < path.length then .error .nameTooLong
  else if (host.tree.find? (host.origin path)).isNone then .error .noEntry
  else
    let trailingSlash := path.getLast? == some slash
    match host.tree.walk create trailingSlash (host.origin path) (Path.names path) with
    | .error error => .error error
    | .ok (.vacant p) => .ok (.vacant p)
    | .ok (.node p) =>
      if trailingSlash && !host.tree.isDirectory p then .error .notDirectory else .ok (.node p)

/-- Finds where a path leads; with `create` its last name may be free. -/
def walk (host : Host) (create : Bool) (path : Text) : Except Failure Destination :=
  match path.toSystem with
  | .error failure => .error failure
  | .ok bytes =>
    match host.locate create bytes with
    | .error error => .error (.system error path)
    | .ok destination => .ok destination

def nodeAt (host : Host) (path : Text) : Except Failure (Path × Node) :=
  match host.walk false path with
  | .error failure => .error failure
  | .ok (.vacant _) => .error (.system .noEntry path)
  | .ok (.node p) =>
    match host.tree.find? p with
    | none => .error (.system .noEntry path)
    | some node => .ok (p, node)

def check (error : Option Errno) (path : Text) : Except Failure Unit :=
  match error with
  | some error => .error (.system error path)
  | none => .ok ()

def stat (host : Host) (path : Text) : Except Failure (Option RegularFile) := do
  let (_, node) ← host.nodeAt path
  check node.faults.onStat path
  match node.content with
  | .directory => return none
  | .file file => return some file

def isExecutableMode (mode : Nat) : Bool := mode &&& 0o111 != 0

def isExecutable (host : Host) (path : Text) : Bool :=
  match host.stat path with
  | .ok (some file) => isExecutableMode file.mode
  | _ => false

def changeDirectory (host : Host) (path : Text) : Except Failure Host := do
  let (p, node) ← host.nodeAt path
  check (if node.isDirectory then none else some .notDirectory) path
  check node.faults.onChdir path
  return { host with directory := p }

def workingDirectory (host : Host) : Except Errno Text :=
  if (host.tree.find? host.directory).isSome then .ok (.ofSystem host.directory.render)
  else .error .noEntry

def listDirectory (host : Host) (path : Text) : Except Failure (List Text) := do
  let (p, node) ← host.nodeAt path
  check (if node.isDirectory then none else some .notDirectory) path
  check node.faults.onList path
  return (host.tree.children p).map Text.ofSystem

def newFileMode : Nat := 0o644

def newFile (host : Host) (p : Path) (data : Bytes) : Node :=
  { content := .file { mode := newFileMode, data }
    faults := { onWrite := (host.tree.find? p.dropLast).bind fun node => node.faults.onWriteNew } }

/-- Opens a file for writing: it is created if its name is free, and emptied unless data is to be
added to what is there. -/
def openForWriting (host : Host) (mode : OpenMode) (path : Text) :
    Except Failure (Host × Path) := do
  match ← host.walk true path with
  | .vacant p => return ({ host with tree := host.tree.set p (host.newFile p []) }, p)
  | .node p =>
    match host.tree.find? p with
    | none => .error (.system .noEntry path)
    | some node =>
      match node.content with
      | .directory => .error (.system .isDirectory path)
      | .file file =>
        check node.faults.onOpen path
        match mode with
        | .append => return (host, p)
        | .truncate =>
          let node := { node with content := .file { file with data := [] } }
          return ({ host with tree := host.tree.set p node }, p)

/-- Adds data to the file at an absolute path; without data nothing is attempted. -/
def appendData (host : Host) (p : Path) (path : Text) (data : Bytes) : Except Failure Host :=
  if data = [] then .ok host
  else match host.tree.find? p with
    | none => .error (.system .noEntry path)
    | some node =>
      match node.faults.onWrite, node.content with
      | some error, _ => .error (.system error path)
      | none, .directory => .error (.system .isDirectory path)
      | none, .file file =>
        let node := { node with content := .file { file with data := file.data ++ data } }
        .ok { host with tree := host.tree.set p node }

/-- Writes data to a file: what went wrong, if anything did, and the host afterwards. -/
def writeFile (host : Host) (mode : OpenMode) (path : Text) (data : Bytes) :
    Option Failure × Host :=
  match host.openForWriting mode path with
  | .error failure => (some failure, host)
  | .ok (opened, p) =>
    match opened.appendData p path data with
    | .error failure => (some failure, opened)
    | .ok written => (none, written)

structure ProgramResult where
  stdout : Bytes
  stderr : Bytes
  status : Int
  deriving Repr, DecidableEq

def failureOfStart (path : Text) : StartFailure → Failure
  | .numbered error => .system error path
  | .unnumbered text => .unnumbered text
  | .launcher text => .launcher text

def start (host : Host) (executable : Text) (argv : List Text) :
    Except Failure (ProgramResult × Host) := do
  let _ ← executable.toSystem
  let _ ← argv.mapM Text.toSystem
  let (_, node) ← host.nodeAt executable
  match node.content with
  | .directory => .error (.system .accessDenied executable)
  | .file file =>
    check (if isExecutableMode file.mode then none else some .accessDenied) executable
    match file.program with
    | none => .error (.system .execFormat executable)
    | some (.fails failure) => .error (failureOfStart executable failure)
    | some (.completes stdout stderr status) =>
      let start := { executable, argv, directory := host.directory }
      return ({ stdout, stderr, status }, { host with started := host.started ++ [start] })

end Host

end LineShell
