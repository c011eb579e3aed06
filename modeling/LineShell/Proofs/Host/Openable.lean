import LineShell.Proofs.Host.Opening
import LineShell.Proofs.Host.FileTree

/-!
# What can be opened for writing

A path can be opened for writing if all its names but the last lead to a directory, and the last one
is that of a regular file or is free there.  `Host.Unopenable` lists what can stand in the way, told
by the names of the path and without a walk.  Main statements: `unopenable_iff`, nothing else can,
and `Openable.exists_opened`, what the opening leaves.
-/

namespace LineShell

namespace FileTree

/-- Names lead to one place at most. -/
theorem Leads.unique {tree : FileTree} {path p q : Path} {names : List Name}
    (hp : tree.Leads path names p) (hq : tree.Leads path names q) : p = q := by
  have hwalkp : tree.walk false false path names = .ok (.node p) :=
    walk_false_eq_ok_iff.mpr ⟨p, rfl, hp⟩
  have hwalkq : tree.walk false false path names = .ok (.node q) :=
    walk_false_eq_ok_iff.mpr ⟨q, rfl, hq⟩
  cases hwalkp.symm.trans hwalkq
  rfl

end FileTree

namespace Host

/-- The bytes of a path name a file that can be opened for writing.  All names in them but the last
lead to a directory.  There the last one is the name of a file, or it is free and a file can be
made. -/
structure Clear (host : Host) (path : Bytes) (p : Path) : Prop where
  size : path.length ≤ maxPathBytes
  start : (host.tree.find? (host.origin path)).isSome = true
  slash : path.getLast? ≠ some slash
  entry : ∃ front name q, Path.names path = front ++ [name] ∧ p = q ++ [name] ∧
    host.tree.Leads (host.origin path) front q ∧ host.tree.isDirectory q = true ∧
    name ≠ Name.dot ∧ name ≠ Name.dots ∧ name.length ≤ maxNameBytes ∧
    (host.tree.find? p = none → ∀ node ∈ host.tree.find? q, node.faults.onCreate = none)
  there : ∀ node ∈ host.tree.find? p, node.isDirectory = false ∧ node.faults.onOpen = none

/-- What keeps the bytes of a path from being opened for writing. -/
inductive Blocked (host : Host) (path : Bytes) : Prop
  | empty : path = [] → Blocked host path
  | longPath : maxPathBytes < path.length → Blocked host path
  | longName {front : List Name} {name : Name} : Path.names path = front ++ [name] →
      maxNameBytes < name.length → Blocked host path
  -- Where the path starts from is there no more.
  | adrift : host.tree.find? (host.origin path) = none → Blocked host path
  | missingParent {front : List Name} {name : Name} : Path.names path = front ++ [name] →
      (¬ ∃ q, host.tree.Leads (host.origin path) front q ∧ host.tree.isDirectory q = true) →
      Blocked host path
  -- A path of this form can name nothing but a directory.
  | directoryForm : Path.names path = [] ∨ path.getLast? = some slash ∨
      (∃ front, Path.names path = front ++ [Name.dot] ∨ Path.names path = front ++ [Name.dots]) →
      Blocked host path
  | directory {front : List Name} {name : Name} {q : Path} : Path.names path = front ++ [name] →
      host.tree.Leads (host.origin path) front q → host.tree.isDirectory (q ++ [name]) = true →
      Blocked host path
  | notCreated {front : List Name} {name : Name} {q : Path} {node : Node} {error : Errno} :
      Path.names path = front ++ [name] → host.tree.Leads (host.origin path) front q →
      host.tree.find? (q ++ [name]) = none → host.tree.find? q = some node →
      node.faults.onCreate = some error → Blocked host path
  | notOpened {front : List Name} {name : Name} {q : Path} {node : Node} {error : Errno} :
      Path.names path = front ++ [name] → host.tree.Leads (host.origin path) front q →
      host.tree.find? (q ++ [name]) = some node → node.faults.onOpen = some error →
      Blocked host path

/-- The file that a path names can be opened for writing. -/
def Openable (host : Host) (path : Text) (p : Path) : Prop :=
  ∃ bytes, path.toSystem = .ok bytes ∧ host.Clear bytes p

/-- A path cannot be opened for writing: it holds NUL or stands for no bytes, or something is in the
way of its bytes. -/
def Unopenable (host : Host) (path : Text) : Prop :=
  ¬ path.Askable ∨ ∃ bytes, path.toSystem = .ok bytes ∧ host.Blocked bytes

variable {host : Host} {path : Text} {bytes : Bytes} {p : Path}

theorem Clear.opens (h : host.Clear bytes p) {destination : Destination}
    (hends : (destination = .node p ∧ (host.tree.find? p).isSome = true) ∨
      (destination = .vacant p ∧ host.tree.find? p = none)) : host.Opens bytes destination := by
  obtain ⟨front, name, q, hnames, rfl, hleads, hdirectory, hdot, hdots, hsize, hcreate⟩ := h.entry
  refine ⟨h.size, h.start, h.slash, front, name, q, hnames, hleads,
    hdirectory, hdot, hdots, hsize, hends.imp_right ?_⟩
  rintro ⟨hvacant, hfree⟩
  exact ⟨hvacant, hfree, Option.bind_eq_none_iff.mpr (hcreate hfree)⟩

/-- Where the name is free, the walk ends at it. -/
theorem Openable.walk_of_free (h : host.Openable path p) (hfree : host.tree.find? p = none) :
    host.walk true path = .ok (.vacant p) := by
  obtain ⟨bytes, hpath, hclear⟩ := h
  exact walk_eq_ok_iff.mpr ⟨bytes, hpath, (hclear.opens (.inr ⟨rfl, hfree⟩)).locate_eq⟩

/-- Where there is a file, the walk ends at it. -/
theorem Openable.walk_of_there (h : host.Openable path p) {node : Node}
    (hfind : host.tree.find? p = some node) : host.walk true path = .ok (.node p) := by
  obtain ⟨bytes, hpath, hclear⟩ := h
  have hopens := hclear.opens (.inl ⟨rfl, Option.isSome_of_eq_some hfind⟩)
  exact walk_eq_ok_iff.mpr ⟨bytes, hpath, hopens.locate_eq⟩

theorem Openable.there (h : host.Openable path p) :
    ∀ node ∈ host.tree.find? p, node.isDirectory = false ∧ node.faults.onOpen = none := by
  obtain ⟨bytes, -, hclear⟩ := h
  exact hclear.there

/-- The way to a file that can be opened is the way of an opening that goes well. -/
theorem Opens.clear {destination : Destination} (h : host.Opens bytes destination)
    (hp : destination = .node p ∨ destination = .vacant p)
    (hthere : ∀ node ∈ host.tree.find? p, node.isDirectory = false ∧ node.faults.onOpen = none) :
    host.Clear bytes p := by
  obtain ⟨front, name, q, hnames, hleads, henters⟩ := h.enters
  obtain rfl := henters.eq_entry hp
  refine ⟨h.size, h.start, h.slash, ⟨front, name, q, hnames, rfl, hleads,
    henters.directory, henters.dot, henters.dots, henters.size, fun hfree => ?_⟩, hthere⟩
  rcases henters.ends with ⟨-, hnode⟩ | ⟨-, -, hfault⟩
  · rw [hfree] at hnode
    cases hnode
  · exact Option.bind_eq_none_iff.mp hfault

theorem openable_of_walk_free (h : host.walk true path = .ok (.vacant p)) :
    host.Openable path p := by
  obtain ⟨bytes, hpath, hlocate⟩ := walk_eq_ok_iff.mp h
  have hplace := free_of_locate_eq_vacant hlocate
  have hopens : host.Opens bytes (.vacant p) := opens_of_locate hlocate fun q hq => nomatch hq
  refine ⟨bytes, hpath, hopens.clear (.inr rfl) fun node hfind => ?_⟩
  cases hplace.free.symm.trans hfind

theorem openable_of_walk_file {file : RegularFile} {faults : Faults}
    (h : host.walk true path = .ok (.node p))
    (hfind : host.tree.find? p = some { content := .file file, faults })
    (hfault : faults.onOpen = none) : host.Openable path p := by
  obtain ⟨bytes, hpath, hlocate⟩ := walk_eq_ok_iff.mp h
  have hopens : host.Opens bytes (.node p) := by
    refine opens_of_locate hlocate fun q hq => ?_
    cases hq
    exact FileTree.isDirectory_of_find? hfind
  refine ⟨bytes, hpath, hopens.clear (.inl rfl) fun node hnode => ?_⟩
  cases hfind.symm.trans hnode
  exact ⟨rfl, hfault⟩

/-! ## What stands in the way -/

theorem Clear.not_blocked (h : host.Clear bytes p) : ¬ host.Blocked bytes := by
  obtain ⟨front, name, q, hnames, rfl, hleads, hdirectory, hdot, hdots, hsize, hcreate⟩ := h.entry
  -- The names of the path are cut into front and last in one way only.
  have hcut : ∀ {front' : List Name} {name' : Name}, Path.names bytes = front' ++ [name'] →
      front' = front ∧ name' = name := by
    intro front' name' hnames'
    have hparts := List.append_inj' (hnames'.symm.trans hnames) rfl
    exact ⟨hparts.1, List.singleton_inj.mp hparts.2⟩
  intro hno
  cases hno with
  | empty hempty =>
    rw [hempty] at hnames
    simp [Path.names, splitOn] at hnames
  | longPath hlong => exact absurd h.size (Nat.not_le.mpr hlong)
  | longName hnames' hlong =>
    obtain ⟨rfl, rfl⟩ := hcut hnames'
    exact absurd hsize (Nat.not_le.mpr hlong)
  | adrift hgone =>
    have hstart := h.start
    rw [hgone] at hstart
    cases hstart
  | missingParent hnames' hmissing =>
    obtain ⟨rfl, rfl⟩ := hcut hnames'
    exact hmissing ⟨q, hleads, hdirectory⟩
  | directoryForm hform =>
    rcases hform with hnil | hslash | ⟨front', hnames' | hnames'⟩
    · rw [hnil] at hnames
      simp at hnames
    · exact h.slash hslash
    · exact hdot (hcut hnames').2.symm
    · exact hdots (hcut hnames').2.symm
  | directory hnames' hleads' hisdir =>
    obtain ⟨rfl, rfl⟩ := hcut hnames'
    cases hleads.unique hleads'
    obtain ⟨node, hfind, hnode⟩ := FileTree.isDirectory_iff.mp hisdir
    rw [(h.there node hfind).1] at hnode
    cases hnode
  | notCreated hnames' hleads' hfree hfind hfault =>
    obtain ⟨rfl, rfl⟩ := hcut hnames'
    cases hleads.unique hleads'
    cases (hcreate hfree _ hfind).symm.trans hfault
  | notOpened hnames' hleads' hfind hfault =>
    obtain ⟨rfl, rfl⟩ := hcut hnames'
    cases hleads.unique hleads'
    cases (h.there _ hfind).2.symm.trans hfault

/-- Whatever is not in the way of a path does not keep it from being opened. -/
theorem exists_clear (h : ¬ host.Blocked bytes) : ∃ p, host.Clear bytes p := by
  have hstart : (host.tree.find? (host.origin bytes)).isSome = true := by
    rw [Option.isSome_iff_ne_none]
    exact fun hgone => h (.adrift hgone)
  -- Each thing that is not in the way is one field of what is to be shown.
  obtain hnil | ⟨front, name, hnames⟩ := List.eq_nil_or_concat' (Path.names bytes)
  · exact absurd (.directoryForm (.inl hnil)) h
  have hparent : ∃ q, host.tree.Leads (host.origin bytes) front q ∧
      host.tree.isDirectory q = true := by
    by_contra hmissing
    exact h (.missingParent hnames hmissing)
  obtain ⟨q, hleads, hdirectory⟩ := hparent
  -- A last name of dots is the form of a directory, as is a slash at the end.
  have hdot : name ≠ Name.dot := by
    rintro rfl
    exact h (.directoryForm (.inr (.inr ⟨front, .inl hnames⟩)))
  have hdots : name ≠ Name.dots := by
    rintro rfl
    exact h (.directoryForm (.inr (.inr ⟨front, .inr hnames⟩)))
  have hcreate : host.tree.find? (q ++ [name]) = none →
      ∀ node ∈ host.tree.find? q, node.faults.onCreate = none := by
    intro hfree node hfind
    rw [Option.eq_none_iff_forall_ne_some]
    exact fun error hfault => h (.notCreated hnames hleads hfree hfind hfault)
  have hthere : ∀ node ∈ host.tree.find? (q ++ [name]),
      node.isDirectory = false ∧ node.faults.onOpen = none := by
    intro node hfind
    constructor
    · rw [← FileTree.isDirectory_of_find? hfind, ← Bool.not_eq_true]
      exact fun hisdir => h (.directory hnames hleads hisdir)
    · rw [Option.eq_none_iff_forall_ne_some]
      exact fun error hfault => h (.notOpened hnames hleads hfind hfault)
  exact ⟨q ++ [name],
    { size := Nat.not_lt.mp fun hlong => h (.longPath hlong)
      start := hstart
      slash := fun hslash => h (.directoryForm (.inr (.inl hslash)))
      entry := ⟨front, name, q, hnames, rfl, hleads, hdirectory, hdot, hdots,
        Nat.not_lt.mp fun hlong => h (.longName hnames hlong), hcreate⟩
      there := hthere }⟩

theorem unopenable_iff : host.Unopenable path ↔ ¬ ∃ p, host.Openable path p := by
  constructor
  · rintro (hpath | ⟨bytes, hpath, hblocked⟩) ⟨p, bytes', hpath', hclear⟩
    · exact hpath ⟨bytes', hpath'⟩
    · cases hpath.symm.trans hpath'
      exact hclear.not_blocked hblocked
  · intro hno
    by_cases haskable : path.Askable
    · obtain ⟨bytes, hpath⟩ := haskable
      refine .inr ⟨bytes, hpath, ?_⟩
      by_contra hfree
      obtain ⟨p, hclear⟩ := exists_clear hfree
      exact hno ⟨p, bytes, hpath, hclear⟩
    · exact .inl haskable

/-! ## What opening leaves -/

theorem Openable.names (h : host.Openable path p) : host.Names path p := by
  cases hfind : host.tree.find? p with
  | none => exact .inr (h.walk_of_free hfind)
  | some node => exact .inl (h.walk_of_there hfind)

/-- What was opened could be opened, whatever the mode. -/
theorem openable_of_openForWriting (mode : OpenMode) {opened : Host}
    (h : host.openForWriting mode path = .ok (opened, p)) : host.Openable path p := by
  unfold openForWriting at h
  obtain ⟨destination, hwalk, h⟩ := bind_eq_ok h
  split at h
  · next q =>
    cases h
    exact openable_of_walk_free hwalk
  · next q =>
    split at h
    · cases h
    · next node hfind =>
      obtain ⟨_ | file, faults⟩ := node
      · cases h
      · obtain ⟨_, hcheck, h⟩ := bind_eq_ok h
        -- The mode decides what is kept, not whether the file is opened.
        cases mode with
        | truncate =>
          cases h
          exact openable_of_walk_file hwalk hfind (check_eq_ok hcheck)
        | append =>
          cases h
          exact openable_of_walk_file hwalk hfind (check_eq_ok hcheck)

/-- An opened file is there: a new one is empty, and an old one has lost what the mode does not
keep. -/
theorem Openable.exists_opened (h : host.Openable path p) (mode : OpenMode) :
    ∃ opened, host.openForWriting mode path = .ok (opened, p) ∧
      (host.tree.find? p = none → Put host p (host.newFile p []) opened) ∧
      ∀ file faults, host.tree.find? p = some { content := .file file, faults } →
        Put host p { content := .file { file with data := mode.keeps file.data }, faults }
          opened := by
  cases hfind : host.tree.find? p with
  | none =>
    let node : Node := host.newFile p []
    have hopened : host.openForWriting mode path =
        .ok ({ host with tree := host.tree.set p node }, p) := by
      rw [openForWriting, h.walk_of_free hfind]
      rfl
    refine ⟨_, hopened, fun _ => put_new (h.walk_of_free hfind) node, ?_⟩
    intro file faults hfile
    cases hfile
  | some node =>
    obtain ⟨hfile, hfault⟩ := h.there node hfind
    obtain ⟨_ | file, faults⟩ := node
    · cases hfile
    · obtain ⟨opened, hopened, hput⟩ :=
        openForWriting_file mode (h.walk_of_there hfind) hfind hfault
      refine ⟨opened, hopened, ?_, ?_⟩
      · intro hfree
        cases hfree
      · rintro file' faults' ⟨⟩
        exact hput

/-- A path that something stands in the way of is refused, and no other is. -/
theorem unopenable_iff_error (mode : OpenMode) : host.Unopenable path ↔
    ∃ failure, host.openForWriting mode path = .error failure := by
  rw [unopenable_iff]
  constructor
  · intro hno
    rcases hopen : host.openForWriting mode path with failure | ⟨opened, p⟩
    · exact ⟨failure, rfl⟩
    · exact absurd ⟨p, openable_of_openForWriting mode hopen⟩ hno
  · rintro ⟨failure, hopen⟩ ⟨p, hopenable⟩
    obtain ⟨opened, hopened, -⟩ := hopenable.exists_opened mode
    cases hopen.symm.trans hopened

end Host

end LineShell
