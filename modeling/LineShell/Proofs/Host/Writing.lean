import LineShell.Proofs.Host.FileTree
import LineShell.Proofs.Host.Operation

/-!
# Writing to a file

`Host.Writing` lists every way in which data can be written to the file that a path names, or fail
to be: what went wrong, and the host afterwards.  Main statement: `writeFile_writing`, writing goes
one of these ways.  So nothing but the named file changes, and `Host.Writable` says exactly when
nothing goes wrong.
-/

namespace LineShell

def OpenMode.keeps : OpenMode → Bytes → Bytes
  | .truncate, _ => []
  | .append, data => data

namespace FileTree

/-- The path is that of a free name, one of those given, in a directory that is there. -/
structure Free (tree : FileTree) (names : List Name) (p : Path) : Prop where
  free : tree.find? p = none
  place : ∃ q name, p = q ++ [name] ∧ tree.isDirectory q = true ∧ name ∈ names

/-- Only the last step of a walk may find no node. -/
theorem free_of_walk_eq_vacant {tree : FileTree} {create trailingSlash : Bool} {path p : Path}
    {names : List Name} (h : tree.walk create trailingSlash path names = .ok (.vacant p)) :
    tree.Free names p := by
  induction names generalizing path with
  | nil => cases h
  | cons name rest ih =>
    -- Every step but the last hands on what the rest of the walk has found.
    have hrest : ∀ {next}, tree.walk create trailingSlash next rest = .ok (.vacant p) →
        tree.Free (name :: rest) p := by
      intro next hwalk
      obtain ⟨hfree, q, last, hp, hdirectory, hmem⟩ := ih hwalk
      exact ⟨hfree, q, last, hp, hdirectory, List.mem_cons_of_mem name hmem⟩
    rw [walk] at h
    split at h
    · cases h
    · next hdirectory =>
      have hdirectory : tree.isDirectory path = true := by simpa using hdirectory
      split at h
      · cases h
      split at h
      · exact hrest h
      split at h
      · exact hrest h
      split at h
      · cases h
      split at h
      · exact hrest h
      · next hfree =>
        -- Here the name is free: it is the last one, or the walk fails.
        split at h
        · split at h
          · cases h
          · cases h
            exact ⟨Option.not_isSome_iff_eq_none.mp hfree, path, name, rfl, hdirectory,
              List.mem_cons_self⟩
        · cases h

end FileTree

namespace Host

/-- A path names a file that is there, or one that may be created. -/
def Names (host : Host) (path : Text) (p : Path) : Prop :=
  host.walk true path = .ok (.node p) ∨ host.walk true path = .ok (.vacant p)

/-- A node has been put at a path, and nothing else has happened to the host. -/
structure Put (host : Host) (p : Path) (node : Node) (after : Host) : Prop where
  directory : after.directory = host.directory
  env : after.env = host.env
  started : after.started = host.started
  here : after.tree.find? p = some node
  elsewhere : ∀ q, q ≠ p → after.tree.find? q = host.tree.find? q

/-- Every way in which data can be written to the file that a path names, or fail to be. -/
inductive Writing (host : Host) (mode : OpenMode) (path : Text) (data : Bytes) :
    Option Failure → Host → Prop
  -- The path leads nowhere.
  | lost {failure : Failure} : host.walk true path = .error failure →
      Writing host mode path data (some failure) host
  | missing {p : Path} : host.walk true path = .ok (.node p) → host.tree.find? p = none →
      Writing host mode path data (some (.system .noEntry path)) host
  | directory {p : Path} {faults : Faults} : host.walk true path = .ok (.node p) →
      host.tree.find? p = some { content := .directory, faults } →
      Writing host mode path data (some (.system .isDirectory path)) host
  | unopened {p : Path} {file : RegularFile} {faults : Faults} {error : Errno} :
      host.walk true path = .ok (.node p) →
      host.tree.find? p = some { content := .file file, faults } → faults.onOpen = some error →
      Writing host mode path data (some (.system error path)) host
  -- The file has been opened, so its old content is gone unless data is added to it.
  | unwritten {p : Path} {file : RegularFile} {faults : Faults} {error : Errno} {after : Host} :
      host.walk true path = .ok (.node p) →
      host.tree.find? p = some { content := .file file, faults } → faults.onOpen = none →
      data ≠ [] → faults.onWrite = some error →
      Put host p { content := .file { file with data := mode.keeps file.data }, faults } after →
      Writing host mode path data (some (.system error path)) after
  -- The file is new, and stays behind a write that fails.
  | createdUnwritten {p : Path} {error : Errno} {after : Host} :
      host.walk true path = .ok (.vacant p) → host.tree.find? p = none →
      data ≠ [] → (host.newFile p []).faults.onWrite = some error →
      Put host p (host.newFile p []) after →
      Writing host mode path data (some (.system error path)) after
  | created {p : Path} {after : Host} : host.walk true path = .ok (.vacant p) →
      host.tree.find? p = none → data = [] ∨ (host.newFile p []).faults.onWrite = none →
      Put host p (host.newFile p data) after →
      Writing host mode path data none after
  | written {p : Path} {file : RegularFile} {faults : Faults} {after : Host} :
      host.walk true path = .ok (.node p) →
      host.tree.find? p = some { content := .file file, faults } → faults.onOpen = none →
      data = [] ∨ faults.onWrite = none →
      Put host p { content := .file { file with data := mode.keeps file.data ++ data }, faults }
        after →
      Writing host mode path data none after

/-- Nothing keeps data from being written to the file that a path names: its name is free, or it is
a regular file that can be opened; and if there is data, the new or the old file can be written. -/
def Writable (host : Host) (path : Text) (data : Bytes) : Prop :=
  (∃ p, host.walk true path = .ok (.vacant p) ∧
      (data = [] ∨ (host.newFile p []).faults.onWrite = none)) ∨
    ∃ p file faults, host.walk true path = .ok (.node p) ∧
      host.tree.find? p = some { content := .file file, faults } ∧ faults.onOpen = none ∧
      (data = [] ∨ faults.onWrite = none)

variable {host : Host} {mode : OpenMode} {path : Text} {data : Bytes}

theorem Names.unique {p q : Path} (hp : host.Names path p) (hq : host.Names path q) : p = q := by
  rcases hp with hp | hp
  · rcases hq with hq | hq <;> cases hp.symm.trans hq
    rfl
  · rcases hq with hq | hq <;> cases hp.symm.trans hq
    rfl

theorem Names.congr {other : Host} {p : Path} (h : host.Names path p)
    (htree : other.tree = host.tree) (hdirectory : other.directory = host.directory) :
    other.Names path p := by
  rw [Names, walk_congr htree hdirectory]
  exact h

/-- A walk ends at no node only at a free name in a directory. -/
theorem free_of_locate_eq_vacant {create : Bool} {bytes : Bytes} {p : Path}
    (h : host.locate create bytes = .ok (.vacant p)) : host.tree.Free (Path.names bytes) p := by
  unfold locate at h
  split at h
  · cases h
  split at h
  · cases h
  split at h
  · cases h
  dsimp only at h
  split at h
  · cases h
  · next p' hwalk =>
    cases h
    exact FileTree.free_of_walk_eq_vacant hwalk
  · split at h <;> cases h

theorem free_of_walk_eq_vacant {create : Bool} {p : Path}
    (h : host.walk create path = .ok (.vacant p)) :
    ∃ bytes, path.toSystem = .ok bytes ∧ host.tree.Free (Path.names bytes) p := by
  obtain ⟨bytes, hpath, hlocate⟩ := walk_eq_ok_iff.mp h
  exact ⟨bytes, hpath, free_of_locate_eq_vacant hlocate⟩

theorem put_set {p : Path} {node : Node} (h : host.tree.admits p node = true) :
    Put host p node { host with tree := host.tree.set p node } where
  directory := rfl
  env := rfl
  started := rfl
  here := by rw [FileTree.find?_set h, if_pos rfl]
  elsewhere q hq := by rw [FileTree.find?_set h, if_neg hq]

/-- A file can be put at every name that a walk finds free. -/
theorem put_new {p : Path} (hwalk : host.walk true path = .ok (.vacant p)) (node : Node) :
    Put host p node { host with tree := host.tree.set p node } := by
  obtain ⟨bytes, -, hfree, q, name, rfl, hdirectory, hname⟩ := free_of_walk_eq_vacant hwalk
  exact put_set
    (FileTree.admits_of_free hfree hdirectory (Path.slash_not_mem_of_mem_names hname))

/-- Of two nodes that are put at one path only the second counts. -/
theorem Put.trans {p : Path} {first second : Node} {between after : Host}
    (h : Put host p first between) (h' : Put between p second after) : Put host p second after where
  directory := h'.directory.trans h.directory
  env := h'.env.trans h.env
  started := h'.started.trans h.started
  here := h'.here
  elsewhere q hq := (h'.elsewhere q hq).trans (h.elsewhere q hq)

theorem put_self {p : Path} {node : Node} (h : host.tree.find? p = some node) :
    Put host p node host :=
  ⟨rfl, rfl, rfl, h, fun _ _ => rfl⟩

/-- Appended data comes behind what the file holds. -/
theorem appendData_put (path : Text) (data : Bytes) {opened : Host} {p : Path}
    {file : RegularFile} {faults : Faults}
    (h : opened.tree.find? p = some { content := .file file, faults }) :
    (data ≠ [] ∧ ∃ error, faults.onWrite = some error ∧
      opened.appendData p path data = .error (.system error path)) ∨
    ((data = [] ∨ faults.onWrite = none) ∧ ∃ after, opened.appendData p path data = .ok after ∧
      Put opened p { content := .file { file with data := file.data ++ data }, faults } after) := by
  by_cases hdata : data = []
  · refine .inr ⟨.inl hdata, opened, by rw [appendData, if_pos hdata], put_self ?_⟩
    rw [h, hdata, List.append_nil]
  · cases hfault : faults.onWrite with
    | some error =>
      refine .inl ⟨hdata, error, rfl, ?_⟩
      rw [appendData, if_neg hdata, h]
      simp only [hfault]
    | none =>
      refine .inr ⟨.inr rfl, _, ?_, put_set (FileTree.admits_of_find? h rfl)⟩
      rw [appendData, if_neg hdata, h]
      simp only [hfault]

/-- A write succeeds if the file is opened and takes the data. -/
theorem writeFile_of_open {opened after : Host} {p : Path}
    (h : host.openForWriting mode path = .ok (opened, p))
    (happend : opened.appendData p path data = .ok after) :
    host.writeFile mode path data = (none, after) := by
  simp only [writeFile, h, happend]

/-- A write that fails behind the opening leaves what the opening left. -/
theorem writeFile_of_not_written {opened : Host} {p : Path} {failure : Failure}
    (h : host.openForWriting mode path = .ok (opened, p))
    (happend : opened.appendData p path data = .error failure) :
    host.writeFile mode path data = (some failure, opened) := by
  simp only [writeFile, h, happend]

/-- A write that fails at the opening leaves the host alone. -/
theorem writeFile_of_not_open {failure : Failure}
    (h : host.openForWriting mode path = .error failure) :
    host.writeFile mode path data = (some failure, host) := by
  rw [writeFile, h]

/-- Opening already does what the mode says with the old content. -/
theorem openForWriting_file (mode : OpenMode) {p : Path} {file : RegularFile} {faults : Faults}
    (hwalk : host.walk true path = .ok (.node p))
    (hfind : host.tree.find? p = some { content := .file file, faults })
    (hfault : faults.onOpen = none) : ∃ opened, host.openForWriting mode path = .ok (opened, p) ∧
      Put host p { content := .file { file with data := mode.keeps file.data }, faults }
        opened := by
  cases mode with
  | truncate =>
    refine ⟨_, ?_, put_set (FileTree.admits_of_find? hfind rfl)⟩
    simp only [openForWriting, hwalk, hfind, hfault, check, bind, Except.bind, pure, Except.pure]
    rfl
  | append =>
    refine ⟨host, ?_, put_self hfind⟩
    simp only [openForWriting, hwalk, hfind, hfault, check, bind, Except.bind, pure, Except.pure]

/-- Where a node is there, it has to be a file that can be opened. -/
theorem writeFile_of_node {p : Path} (hwalk : host.walk true path = .ok (.node p)) :
    Writing host mode path data (host.writeFile mode path data).1
      (host.writeFile mode path data).2 := by
  rcases hfind : host.tree.find? p with _ | ⟨_ | file, faults⟩
  · have hopen : host.openForWriting mode path = .error (.system .noEntry path) := by
      simp only [openForWriting, hwalk, hfind, bind, Except.bind]
    rw [writeFile_of_not_open hopen]
    exact .missing hwalk hfind
  · have hopen : host.openForWriting mode path = .error (.system .isDirectory path) := by
      simp only [openForWriting, hwalk, hfind, bind, Except.bind]
    rw [writeFile_of_not_open hopen]
    exact .directory hwalk hfind
  · cases hfault : faults.onOpen with
    | some error =>
      have hopen : host.openForWriting mode path = .error (.system error path) := by
        simp only [openForWriting, hwalk, hfind, hfault, check, bind, Except.bind]
      rw [writeFile_of_not_open hopen]
      exact .unopened hwalk hfind hfault
    | none =>
      obtain ⟨opened, hopen, hput⟩ := openForWriting_file mode hwalk hfind hfault
      rcases appendData_put path data hput.here with
        ⟨hdata, error, hwrite, happend⟩ | ⟨hwrite, after, happend, hadded⟩
      · rw [writeFile_of_not_written hopen happend]
        exact .unwritten hwalk hfind hfault hdata hwrite hput
      · rw [writeFile_of_open hopen happend]
        exact .written hwalk hfind hfault hwrite (hput.trans hadded)

/-- Where the name is free, an empty file is put there first. -/
theorem writeFile_of_vacant {p : Path} (hwalk : host.walk true path = .ok (.vacant p)) :
    Writing host mode path data (host.writeFile mode path data).1
      (host.writeFile mode path data).2 := by
  let node : Node := host.newFile p []
  have hput : Put host p node { host with tree := host.tree.set p node } := put_new hwalk node
  have hopen : host.openForWriting mode path =
      .ok ({ host with tree := host.tree.set p node }, p) := by
    rw [openForWriting, hwalk]
    rfl
  obtain ⟨bytes, -, hfree⟩ := free_of_walk_eq_vacant hwalk
  rcases appendData_put path data hput.here with
    ⟨hdata, error, hwrite, happend⟩ | ⟨hwrite, after, happend, hadded⟩
  · rw [writeFile_of_not_written hopen happend]
    exact .createdUnwritten hwalk hfree.free hdata hwrite hput
  · rw [writeFile_of_open hopen happend]
    exact .created hwalk hfree.free hwrite (hput.trans hadded)

/-- Writing data to a file goes one of the ways that are listed. -/
theorem writeFile_writing (host : Host) (mode : OpenMode) (path : Text) (data : Bytes) :
    Writing host mode path data (host.writeFile mode path data).1
      (host.writeFile mode path data).2 := by
  cases hwalk : host.walk true path with
  | error failure =>
    have hopen : host.openForWriting mode path = .error failure := by
      rw [openForWriting, hwalk]
      rfl
    rw [writeFile_of_not_open hopen]
    exact .lost hwalk
  | ok destination =>
    cases destination with
    | node p => exact writeFile_of_node hwalk
    | vacant p => exact writeFile_of_vacant hwalk

/-! ## What the ways of writing have in common -/

variable {failed : Option Failure} {after : Host}

/-- Nothing has gone wrong exactly if nothing keeps the data from being written. -/
theorem Writing.eq_none_iff (h : Writing host mode path data failed after) :
    failed = none ↔ Writable host path data := by
  -- What the path leads to decides which of the two kinds of writable file it could be.
  cases h with
  | lost hwalk => simp [Writable, hwalk]
  | missing hwalk hfind => simp [Writable, hwalk, hfind]
  | directory hwalk hfind => simp [Writable, hwalk, hfind]
  | unopened hwalk hfind hfault => simp [Writable, hwalk, hfind, hfault]
  | unwritten hwalk hfind hfault hdata hwrite hput =>
    simp [Writable, hwalk, hfind, hfault, hdata, hwrite]
  | createdUnwritten hwalk hfree hdata hwrite hput => simp [Writable, hwalk, hdata, hwrite]
  | created hwalk hfree hwrite hput => exact iff_of_true rfl (.inl ⟨_, hwalk, hwrite⟩)
  | written hwalk hfind hfault hwrite hput =>
    exact iff_of_true rfl (.inr ⟨_, _, _, hwalk, hfind, hfault, hwrite⟩)

/-- A path that cannot be given to the operating system leads nowhere. -/
theorem Writing.of_toSystem (h : Writing host mode path data failed after) {failure : Failure}
    (hpath : path.toSystem = .error failure) : failed = some failure ∧ after = host := by
  have hwalk : host.walk true path = .error failure :=
    (walk_eq_error_iff (Text.isAnswer_of_toSystem hpath)).mpr hpath
  cases h with
  | lost hwalk' =>
    rw [hwalk, Except.error.injEq] at hwalk'
    rw [hwalk']
    exact ⟨rfl, rfl⟩
  | missing hwalk' | directory hwalk' | unopened hwalk' | unwritten hwalk' | createdUnwritten hwalk'
  | created hwalk' | written hwalk' => cases hwalk.symm.trans hwalk'

/-- Why a file cannot be written can be told. -/
theorem Writing.showable_reason {failure : Failure}
    (h : Writing host mode path data (some failure) after) : failure.reason.Showable := by
  generalize hfailed : some failure = failed at h
  cases h with
  | lost hwalk =>
    cases hfailed
    exact showable_reason_of_walk hwalk
  | missing | directory | unopened | unwritten | createdUnwritten =>
    cases hfailed
    exact Text.showable_reason_system _ _
  | created | written => cases hfailed

/-- Behind a free name there is a new file, and nothing but the write to it may fail. -/
theorem Writing.of_vacant (h : Writing host mode path data failed after) {p : Path}
    (hwalk : host.walk true path = .ok (.vacant p)) :
    (data ≠ [] ∧ ∃ error, (host.newFile p []).faults.onWrite = some error ∧
      failed = some (.system error path) ∧ Put host p (host.newFile p []) after) ∨
    ((data = [] ∨ (host.newFile p []).faults.onWrite = none) ∧ failed = none ∧
      Put host p (host.newFile p data) after) := by
  cases h with
  | createdUnwritten hwalk' _ hdata hfault hput =>
    cases hwalk.symm.trans hwalk'
    exact .inl ⟨hdata, _, hfault, rfl, hput⟩
  | created hwalk' _ hwrite hput =>
    cases hwalk.symm.trans hwalk'
    exact .inr ⟨hwrite, rfl, hput⟩
  | lost hwalk' | missing hwalk' | directory hwalk' | unopened hwalk' | unwritten hwalk'
  | written hwalk' => cases hwalk.symm.trans hwalk'

/-- A file that is there and can be opened is written, and nothing but the write may fail. -/
theorem Writing.of_file (h : Writing host mode path data failed after) {p : Path}
    {file : RegularFile} {faults : Faults} (hwalk : host.walk true path = .ok (.node p))
    (hfind : host.tree.find? p = some { content := .file file, faults })
    (hopen : faults.onOpen = none) :
    (data ≠ [] ∧ ∃ error, faults.onWrite = some error ∧ failed = some (.system error path) ∧
      Put host p { content := .file { file with data := mode.keeps file.data }, faults } after) ∨
    ((data = [] ∨ faults.onWrite = none) ∧ failed = none ∧
      Put host p { content := .file { file with data := mode.keeps file.data ++ data }, faults }
        after) := by
  cases h with
  | lost hwalk' | createdUnwritten hwalk' | created hwalk' => cases hwalk.symm.trans hwalk'
  | missing hwalk' hfind' | directory hwalk' hfind' =>
    cases hwalk.symm.trans hwalk'
    cases hfind.symm.trans hfind'
  | unopened hwalk' hfind' hfault =>
    cases hwalk.symm.trans hwalk'
    cases hfind.symm.trans hfind'
    cases hopen.symm.trans hfault
  | unwritten hwalk' hfind' _ hdata hfault hput =>
    cases hwalk.symm.trans hwalk'
    cases hfind.symm.trans hfind'
    exact .inl ⟨hdata, _, hfault, rfl, hput⟩
  | written hwalk' hfind' _ hwrite hput =>
    cases hwalk.symm.trans hwalk'
    cases hfind.symm.trans hfind'
    exact .inr ⟨hwrite, rfl, hput⟩

/-- Whatever goes wrong, no node changes but a file that the path names. -/
theorem Writing.eq_or_put (h : Writing host mode path data failed after) :
    after = host ∨ ∃ p file faults, host.Names path p ∧
      Put host p { content := .file file, faults } after := by
  cases h with
  | lost | missing | directory | unopened => exact .inl rfl
  | unwritten hwalk _ _ _ _ hput => exact .inr ⟨_, _, _, .inl hwalk, hput⟩
  | createdUnwritten hwalk _ _ _ hput => exact .inr ⟨_, _, _, .inr hwalk, hput⟩
  | created hwalk _ _ hput => exact .inr ⟨_, _, _, .inr hwalk, hput⟩
  | written hwalk _ _ _ hput => exact .inr ⟨_, _, _, .inl hwalk, hput⟩

end Host

end LineShell
