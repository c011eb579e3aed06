import LineShell.Host.Failure
import LineShell.Text.Split

/-!
# File trees

A file tree assigns nodes to absolute paths.  A path is the list of names that lead from the root
to a node, and a name is a byte string.  A node is a directory or a regular file, and may be set to
fail at some operations.  Every node but the root lies in a directory, and this is part of a tree.
`find?` is the view of a tree: `set` and `eraseBelow` are described by what `find?` returns
afterwards.  Main statements: those laws, and `Path.names_render`, a path is read back from its
written form.
-/

namespace LineShell

abbrev Name := Bytes

/-- An absolute path: the names that lead from the root to a node. -/
abbrev Path := List Name

def slash : UInt8 := 0x2F

namespace Name

def dot : Name := [0x2E]

def dots : Name := [0x2E, 0x2E]

@[simp] theorem dots_ne_dot : dots ≠ dot := by decide

end Name

namespace Path

def render : Path → Bytes
  | [] => [slash]
  | name :: [] => slash :: name
  | name :: next :: rest => slash :: name ++ render (next :: rest)

/-- The names in a written path; repeated slashes count once. -/
def names (t : Bytes) : List Name := (splitOn slash t).filter (· ≠ [])

theorem render_cons (name : Name) (rest : Path) :
    render (name :: rest) = slash :: joinWith [slash] (name :: rest) := by
  induction rest generalizing name with
  | nil => rfl
  | cons next rest ih => simp [render, joinWith, ih]

theorem slash_not_mem_of_mem_names {t : Bytes} {name : Name} (h : name ∈ names t) :
    slash ∉ name :=
  not_mem_of_mem_splitOn (List.mem_filter.mp h).1

/-- A path is read back from its written form. -/
theorem names_render {p : Path} (h : ∀ name ∈ p, name ≠ [] ∧ slash ∉ name) :
    names p.render = p := by
  cases p with
  | nil => rfl
  | cons name rest =>
    have hsplit := splitOn_joinWith (List.cons_ne_nil name rest) fun n hn => (h n hn).2
    rw [names, render_cons, splitOn, if_pos rfl, hsplit, List.filter_cons_of_neg (by simp),
      List.filter_eq_self]
    exact fun n hn => decide_eq_true (h n hn).1

theorem names_append (t u : Bytes) : names (t ++ slash :: u) = names t ++ names u := by
  rw [names, splitOn_append, List.filter_append]
  rfl

theorem names_of_not_mem {name : Name} (hne : name ≠ []) (h : slash ∉ name) :
    names name = [name] := by
  rw [names, splitOn_of_not_mem h]
  simp [hne]

theorem names_slashes (n : Nat) : names (List.replicate n slash) = [] := by
  induction n with
  | zero => rfl
  | succ n ih => rw [List.replicate_succ, ← List.nil_append (slash :: _), names_append, ih]; rfl

/-- Slashes at the end of a written path do not count. -/
theorem names_append_slashes (t : Bytes) (n : Nat) :
    names (t ++ List.replicate n slash) = names t := by
  cases n with
  | zero => rw [List.replicate_zero, List.append_nil]
  | succ n => rw [List.replicate_succ, names_append, names_slashes, List.append_nil]

def ancestry : Path → List Path
  | [] => [[]]
  | name :: rest => [] :: (ancestry rest).map (name :: ·)

end Path

/-- Why a program does not start. -/
inductive StartFailure
  | numbered (error : Errno)
  | unnumbered (text : Text)
  | launcher (text : Text)
  deriving Repr, DecidableEq

/-- What a program does when it is started. -/
inductive Program
  /-- It writes to its two streams and ends; a negative status is the signal that killed it. -/
  | completes (stdout stderr : Bytes) (status : Int)
  | fails (failure : StartFailure)
  deriving Repr, DecidableEq

structure RegularFile where
  mode : Nat
  data : Bytes
  /-- The program image, if the file is one. -/
  program : Option Program := none
  deriving Repr, DecidableEq

/-- The operations that a node is set to fail at. -/
structure Faults where
  onStat : Option Errno := none
  onOpen : Option Errno := none
  onWrite : Option Errno := none
  onCreate : Option Errno := none
  /-- What the first write to a file that is made in the directory meets. -/
  onWriteNew : Option Errno := none
  onList : Option Errno := none
  onChdir : Option Errno := none
  deriving Repr, DecidableEq

inductive Content
  | directory
  | file (file : RegularFile)
  deriving Repr, DecidableEq

structure Node where
  content : Content
  faults : Faults := {}
  deriving Repr, DecidableEq

def Node.isDirectory (node : Node) : Bool :=
  match node.content with
  | .directory => true
  | .file _ => false

namespace FileTree

def lookup (entries : List (Path × Node)) (path : Path) : Option Node :=
  (entries.find? fun entry => entry.1 == path).map Prod.snd

def directoryAt (entries : List (Path × Node)) (path : Path) : Bool :=
  (lookup entries path).any Node.isDirectory

/-- Every node but the root lies in a directory, under a name that can be written in a path. -/
structure Closed (entries : List (Path × Node)) : Prop where
  written : ∀ entry ∈ entries, ∀ name ∈ entry.1, slash ∉ name
  parent : ∀ entry ∈ entries, entry.1 ≠ [] → directoryAt entries entry.1.dropLast = true

end FileTree

structure FileTree where
  entries : List (Path × Node)
  closed : FileTree.Closed entries
  deriving Repr, DecidableEq

namespace FileTree

def root : FileTree where
  entries := [([], { content := .directory })]
  closed := ⟨by simp, by simp⟩

def find? (tree : FileTree) (path : Path) : Option Node := lookup tree.entries path

def isDirectory (tree : FileTree) (path : Path) : Bool := directoryAt tree.entries path

theorem isSome_lookup {entries : List (Path × Node)} {path : Path} :
    (lookup entries path).isSome = true ↔ ∃ entry ∈ entries, entry.1 = path := by
  simp [lookup]

/-- Leaving entries out hides what stood at their paths, and nothing else. -/
theorem lookup_filter (entries : List (Path × Node)) (keep : Path → Bool) (path : Path) :
    lookup (entries.filter fun entry => keep entry.1) path =
      if keep path then lookup entries path else none := by
  simp only [lookup, List.find?_filter]
  split
  · next h =>
    congr 2
    funext entry
    by_cases he : entry.1 = path
    · simp [he, h]
    · simp [he]
  · next h =>
    rw [Option.map_eq_none_iff, List.find?_eq_none]
    intro entry _ hentry
    simp only [beq_iff_eq, decide_eq_true_eq] at hentry
    exact h (hentry.2 ▸ hentry.1)

def childName? (path : Path) (entry : Path) : Option Name :=
  if entry ≠ [] ∧ entry.dropLast = path then entry.getLast? else none

def children (tree : FileTree) (path : Path) : List Name :=
  tree.entries.filterMap fun entry => childName? path entry.1

theorem isSome_find? (tree : FileTree) (path : Path) :
    (tree.find? path).isSome = true ↔ ∃ entry ∈ tree.entries, entry.1 = path :=
  isSome_lookup

theorem childName?_eq_some (path entry : Path) (name : Name) :
    childName? path entry = some name ↔ entry = path ++ [name] := by
  unfold childName?
  constructor
  · intro h
    split at h
    · next hp =>
      rw [List.getLast?_eq_some_getLast hp.1, Option.some.injEq] at h
      rw [← hp.2, ← h, List.dropLast_concat_getLast hp.1]
    · simp at h
  · rintro rfl
    simp

/-- The children of a directory are the names at which a node is found. -/
theorem mem_children (tree : FileTree) (path : Path) (name : Name) :
    name ∈ tree.children path ↔ (tree.find? (path ++ [name])).isSome = true := by
  simp [children, childName?_eq_some, isSome_find?]

/-- A node can be put at a path in a directory, and nothing but a directory above other nodes. -/
def admits (tree : FileTree) (path : Path) (node : Node) : Bool :=
  path.all (fun name => slash ∉ name) && (path = [] || tree.isDirectory path.dropLast) &&
    (node.isDirectory || (tree.children path).isEmpty)

def entriesWith (tree : FileTree) (path : Path) (node : Node) : List (Path × Node) :=
  (path, node) :: tree.entries.filter fun entry => entry.1 != path

theorem lookup_entriesWith (tree : FileTree) (path other : Path) (node : Node) :
    lookup (tree.entriesWith path node) other =
      if other = path then some node else tree.find? other := by
  have hrest := lookup_filter tree.entries (· != path) other
  rw [lookup] at hrest ⊢
  rw [entriesWith, List.find?_cons]
  by_cases h : other = path
  · simp [h]
  · have hne : (path == other) = false := by simpa using Ne.symm h
    rw [hne, if_neg h, hrest, if_pos (by simpa using h)]
    rfl

/-- A tree stays closed when a node is put where one can be put. -/
theorem closed_entriesWith {tree : FileTree} {path : Path} {node : Node}
    (h : tree.admits path node = true) : Closed (tree.entriesWith path node) := by
  simp only [admits, Bool.and_eq_true, List.all_eq_true, decide_eq_true_eq, Bool.or_eq_true,
    List.isEmpty_iff] at h
  obtain ⟨⟨hwritten, hparent⟩, hnode⟩ := h
  constructor
  · intro entry hentry
    rcases List.mem_cons.mp hentry with rfl | hentry
    · exact hwritten
    · exact tree.closed.written entry (List.mem_filter.mp hentry).1
  · intro entry hentry hne
    rw [directoryAt, lookup_entriesWith]
    rcases List.mem_cons.mp hentry with rfl | hentry
    · have hshorter : path.dropLast ≠ path := by
        intro heq
        have hlength := congrArg List.length heq
        have hpos : 0 < path.length := List.length_pos_iff.mpr hne
        rw [List.length_dropLast] at hlength
        omega
      rw [if_neg hshorter]
      exact hparent.resolve_left hne
    · have hmem := (List.mem_filter.mp hentry).1
      split
      · next heq =>
        -- Something lies below the path, so what is put there is a directory.
        refine hnode.resolve_right fun hnone => ?_
        have hchild : entry.1.getLast hne ∈ tree.children path := by
          rw [mem_children, isSome_find?, ← heq, List.dropLast_concat_getLast]
          exact ⟨entry, hmem, rfl⟩
        rw [hnone] at hchild
        cases hchild
      · exact tree.closed.parent entry hmem hne

def set (tree : FileTree) (path : Path) (node : Node) : FileTree :=
  if h : tree.admits path node = true then
    { entries := tree.entriesWith path node, closed := closed_entriesWith h }
  else tree

/-- Nothing is left hanging below a node that was removed with everything below it. -/
theorem closed_eraseBelow (tree : FileTree) (path : Path) :
    Closed (tree.entries.filter fun entry => !path.isPrefixOf entry.1) := by
  constructor
  · exact fun entry hentry => tree.closed.written entry (List.mem_filter.mp hentry).1
  · intro entry hentry hne
    obtain ⟨hmem, hkept⟩ := List.mem_filter.mp hentry
    have hparent : (!path.isPrefixOf entry.1.dropLast) = true := by
      rw [Bool.not_eq_true', Bool.eq_false_iff] at hkept ⊢
      exact fun h => hkept (List.isPrefixOf_iff_prefix.mpr
        ((List.isPrefixOf_iff_prefix.mp h).trans (List.dropLast_prefix entry.1)))
    rw [directoryAt, lookup_filter _ fun p => !path.isPrefixOf p, if_pos hparent]
    exact tree.closed.parent entry hmem hne

def eraseBelow (tree : FileTree) (path : Path) : FileTree where
  entries := tree.entries.filter fun entry => !path.isPrefixOf entry.1
  closed := closed_eraseBelow tree path

def addDirectory (tree : FileTree) (path : Path) : FileTree :=
  if (tree.find? path).isSome then tree else tree.set path { content := .directory }

def makeDirectories (tree : FileTree) (path : Path) : FileTree :=
  path.ancestry.foldl addDirectory tree

def putFile (tree : FileTree) (path : Path) (file : RegularFile) : FileTree :=
  (tree.makeDirectories path.dropLast).set path { content := .file file }

def setFaults (tree : FileTree) (path : Path) (faults : Faults) : FileTree :=
  match tree.find? path with
  | none => tree
  | some node => tree.set path { node with faults }

/-- The regular files whose mode or data are not what they were in an earlier tree. -/
def changedFiles (before after : FileTree) : List (Path × RegularFile) :=
  after.entries.filterMap fun (path, node) =>
    match node.content, (before.find? path).map Node.content with
    | .file file, some (.file old) =>
      if file.mode = old.mode ∧ file.data = old.data then none else some (path, file)
    | .file file, _ => some (path, file)
    | .directory, _ => none

/-- At the place of the new node it is found, and everywhere else what was there before. -/
theorem find?_set {tree : FileTree} {path : Path} {node : Node} (h : tree.admits path node = true)
    (other : Path) :
    (tree.set path node).find? other = if other = path then some node else tree.find? other := by
  rw [set, dif_pos h]
  exact tree.lookup_entriesWith path other node

/-- What is removed is a path with everything below it. -/
theorem find?_eraseBelow (tree : FileTree) (path other : Path) :
    (tree.eraseBelow path).find? other =
      if path.isPrefixOf other then none else tree.find? other := by
  rw [find?, eraseBelow, lookup_filter _ fun p => !path.isPrefixOf p]
  cases path.isPrefixOf other <;> rfl

/-- On the way to a node every name can be written in a path. -/
theorem written {tree : FileTree} {path : Path} (h : (tree.find? path).isSome = true) :
    ∀ name ∈ path, slash ∉ name := by
  obtain ⟨entry, hentry, rfl⟩ := (tree.isSome_find? path).mp h
  exact tree.closed.written entry hentry

/-- What is found in a tree lies in a directory. -/
theorem parent {tree : FileTree} {path : Path} {name : Name}
    (h : (tree.find? (path ++ [name])).isSome = true) : tree.isDirectory path = true := by
  obtain ⟨entry, hentry, heq⟩ := (tree.isSome_find? _).mp h
  have hparent := tree.closed.parent entry hentry (by rw [heq]; simp)
  rwa [heq, List.dropLast_concat] at hparent

/-- Only a directory has children. -/
theorem children_eq_nil {tree : FileTree} {path : Path} (h : tree.isDirectory path = false) :
    tree.children path = [] := by
  rw [List.eq_nil_iff_forall_not_mem]
  intro name hname
  rw [mem_children] at hname
  cases h.symm.trans (parent hname)

end FileTree

end LineShell
