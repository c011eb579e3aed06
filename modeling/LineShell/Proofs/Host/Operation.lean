import LineShell.Command.SearchPath
import LineShell.Proofs.Text.Encoding

/-!
# Operations of the host

What an operation does when it succeeds, and when the operating system is not asked at all.  That
happens if a text that it would be asked with has no bytes or holds NUL, and then the operation
fails as that text does: everything else that goes wrong is told by the operating system or by the
program.
-/

namespace LineShell

namespace Host

/-! ## Chains of checks -/

/-- A chain that succeeds has succeeded at each check. -/
theorem bind_eq_ok {α β : Type} {x : Except Failure α} {f : α → Except Failure β} {b : β}
    (h : (x >>= f) = .ok b) : ∃ a, x = .ok a ∧ f a = .ok b := by
  cases x with
  | error failure => cases h
  | ok a => exact ⟨a, rfl, h⟩

/-- A chain fails at its first check or behind it. -/
theorem bind_eq_error {α β : Type} {x : Except Failure α} {f : α → Except Failure β}
    {failure : Failure} (h : (x >>= f) = .error failure) :
    x = .error failure ∨ ∃ a, x = .ok a ∧ f a = .error failure := by
  cases x with
  | error other =>
    cases h
    exact .inl rfl
  | ok a => exact .inr ⟨a, rfl, h⟩

theorem map_eq_ok {α β : Type} {x : Except Failure α} {f : α → β} {b : β}
    (h : x.map f = .ok b) : ∃ a, x = .ok a ∧ f a = b := by
  cases x with
  | error failure => cases h
  | ok a => exact ⟨a, rfl, Except.ok.inj h⟩

theorem map_eq_error {α β : Type} {x : Except Failure α} {f : α → β} {failure : Failure}
    (h : x.map f = .error failure) : x = .error failure := by
  cases x with
  | error other => cases h; rfl
  | ok a => cases h

theorem isOk_map_iff {α β : Type} {x : Except Failure α} {f : α → β} :
    (∃ b, x.map f = .ok b) ↔ ∃ a, x = .ok a := by
  cases x <;> simp [Except.map]

theorem isError_map_iff {α β : Type} {x : Except Failure α} {f : α → β} :
    (∃ failure, x.map f = .error failure) ↔ ∃ failure, x = .error failure := by
  cases x <;> simp [Except.map]

theorem check_eq_ok {error : Option Errno} {path : Text} (h : check error path = .ok ()) :
    error = none := by
  cases error with
  | none => rfl
  | some error => cases h

theorem isAnswer_of_check {error : Option Errno} {path : Text} {failure : Failure}
    (h : check error path = .error failure) : failure.isAnswer = true := by
  cases error with
  | none => cases h
  | some error =>
    cases h
    rfl

variable {host : Host} {path : Text} {failure : Failure}

/-! ## Walks -/

/-- The operating system is not asked exactly if the path cannot be given to it. -/
theorem walk_eq_error_iff {create : Bool} (hfailure : failure.isAnswer = false) :
    host.walk create path = .error failure ↔ path.toSystem = .error failure := by
  unfold walk
  split
  · next other hpath => simp [hpath]
  · next bytes hpath =>
    split
    · refine iff_of_false ?_ (by simp [hpath])
      rintro ⟨⟩
      cases hfailure
    · simp [hpath]

/-- A walk needs the bytes of its path and goes by them alone. -/
theorem walk_eq_ok_iff {create : Bool} {destination : Destination} :
    host.walk create path = .ok destination ↔
      ∃ bytes, path.toSystem = .ok bytes ∧ host.locate create bytes = .ok destination := by
  unfold walk
  split
  · next failure hpath => simp [hpath]
  · next bytes hpath => split <;> simp [*]

/-- Why a path leads nowhere can be told. -/
theorem showable_reason_of_walk {create : Bool} (h : host.walk create path = .error failure) :
    failure.reason.Showable := by
  unfold walk at h
  split at h
  · next other hpath =>
    cases h
    exact Text.showable_reason_of_toSystem hpath
  · split at h
    · cases h
      exact Text.showable_reason_system _ _
    · cases h

/-- A walk looks at the file tree and the working directory alone. -/
theorem walk_congr {other : Host} (htree : host.tree = other.tree)
    (hdirectory : host.directory = other.directory) (create : Bool) (path : Text) :
    host.walk create path = other.walk create path := by
  rcases host with ⟨tree, directory, env, started⟩
  rcases other with ⟨tree', directory', env', started'⟩
  cases htree
  cases hdirectory
  rfl

theorem nodeAt_eq_error_iff (hfailure : failure.isAnswer = false) :
    host.nodeAt path = .error failure ↔ path.toSystem = .error failure := by
  have hanswer : (.error (.system .noEntry path) : Except Failure (Path × Node)) ≠ .error failure := by
    rintro ⟨⟩
    cases hfailure
  have hiff : host.walk false path = .error failure ↔ path.toSystem = .error failure :=
    walk_eq_error_iff hfailure
  rw [← hiff]
  unfold nodeAt
  split
  · next other hwalk => simp [hwalk]
  · next p hwalk => simpa [hwalk] using hanswer
  · next p hwalk =>
    split
    · simpa [hwalk] using hanswer
    · simp [hwalk]

/-- Only a path that can be asked for leads to a node. -/
theorem askable_of_nodeAt {found : Path × Node} (h : host.nodeAt path = .ok found) :
    path.Askable := by
  refine Decidable.byContradiction fun hpath => ?_
  obtain ⟨failure, hfailure⟩ := Text.not_askable_iff.mp hpath
  have herror : host.nodeAt path = .error failure :=
    (nodeAt_eq_error_iff (Text.isAnswer_of_toSystem hfailure)).mpr hfailure
  cases h.symm.trans herror

/-! ## Directories -/

section

variable {α : Type} {fault : Faults → Option Errno} {f : Path → α}

/-- What is done with the directory that a path leads to, unless the directory is set to fail. -/
def withDirectory (host : Host) (path : Text) (fault : Faults → Option Errno) (f : Path → α) :
    Except Failure α := do
  let (p, node) ← host.nodeAt path
  check (if node.isDirectory then none else some .notDirectory) path
  check (fault node.faults) path
  return f p

/-- Something is done with a directory that is there and is not set to fail. -/
theorem withDirectory_eq_ok_iff {a : α} : host.withDirectory path fault f = .ok a ↔
    ∃ p node, host.nodeAt path = .ok (p, node) ∧ node.isDirectory = true ∧
      fault node.faults = none ∧ a = f p := by
  constructor
  · intro h
    obtain ⟨⟨p, node⟩, hnode, h⟩ := bind_eq_ok h
    obtain ⟨_, hdirectory, h⟩ := bind_eq_ok h
    obtain ⟨_, hfault, h⟩ := bind_eq_ok h
    have hnone := check_eq_ok hdirectory
    refine ⟨p, node, hnode, ?_, check_eq_ok hfault, (Except.ok.inj h).symm⟩
    cases hisdir : node.isDirectory with
    | true => rfl
    | false => simp [hisdir] at hnone
  · rintro ⟨p, node, hnode, hdirectory, hfault, rfl⟩
    rw [withDirectory, hnode]
    simp only [bind, Except.bind, hdirectory, hfault, check]
    rfl

/-- The operating system is not asked exactly if the path cannot be given to it. -/
theorem withDirectory_eq_error_iff (hfailure : failure.isAnswer = false) :
    host.withDirectory path fault f = .error failure ↔ path.toSystem = .error failure := by
  have hiff : host.nodeAt path = .error failure ↔ path.toSystem = .error failure :=
    nodeAt_eq_error_iff hfailure
  rw [← hiff]
  constructor
  · intro h
    rcases bind_eq_error h with hnode | ⟨⟨p, node⟩, -, h⟩
    · exact hnode
    rcases bind_eq_error h with hcheck | ⟨_, -, h⟩
    · cases hfailure.symm.trans (isAnswer_of_check hcheck)
    rcases bind_eq_error h with hcheck | ⟨_, -, h⟩
    · cases hfailure.symm.trans (isAnswer_of_check hcheck)
    · cases h
  · intro hnode
    rw [withDirectory, hnode]
    rfl

end

theorem changeDirectory_eq (host : Host) (path : Text) : host.changeDirectory path =
    host.withDirectory path Faults.onChdir fun p => { host with directory := p } := rfl

theorem listDirectory_eq (host : Host) (path : Text) : host.listDirectory path =
    host.withDirectory path Faults.onList fun p => (host.tree.children p).map .ofSystem := rfl

/-- A change of the directory leads to a directory and changes nothing else. -/
theorem changeDirectory_eq_ok {moved : Host} (h : host.changeDirectory path = .ok moved) :
    ∃ p node, host.nodeAt path = .ok (p, node) ∧ node.isDirectory = true ∧
      node.faults.onChdir = none ∧ moved = { host with directory := p } := by
  rw [changeDirectory_eq] at h
  exact withDirectory_eq_ok_iff.mp h

theorem changeDirectory_eq_error_iff (hfailure : failure.isAnswer = false) :
    host.changeDirectory path = .error failure ↔ path.toSystem = .error failure := by
  rw [changeDirectory_eq]
  exact withDirectory_eq_error_iff hfailure

theorem listDirectory_eq_ok_iff {entries : List Text} :
    host.listDirectory path = .ok entries ↔ ∃ p node, host.nodeAt path = .ok (p, node) ∧
      node.isDirectory = true ∧ node.faults.onList = none ∧
      entries = (host.tree.children p).map .ofSystem := by
  rw [listDirectory_eq]
  exact withDirectory_eq_ok_iff

theorem listDirectory_eq_error_iff (hfailure : failure.isAnswer = false) :
    host.listDirectory path = .error failure ↔ path.toSystem = .error failure := by
  rw [listDirectory_eq]
  exact withDirectory_eq_error_iff hfailure

/-! ## Programs -/

theorem askable_of_isExecutable (h : host.isExecutable path = true) : path.Askable := by
  unfold isExecutable at h
  split at h
  · next file hstat =>
    obtain ⟨found, hnode, -⟩ := bind_eq_ok hstat
    exact askable_of_nodeAt hnode
  · cases h

/-- A program that is found is executable, and its path ends in its name. -/
theorem findProgram_eq_some {directories : List Text} {name : Text}
    (h : host.findProgram directories name = some path) :
    host.isExecutable path = true ∧ name <:+ path := by
  unfold findProgram at h
  split at h
  · cases h
  · split at h
    · split at h
      · next hexec =>
        cases h
        exact ⟨hexec, List.suffix_rfl⟩
      · cases h
    · refine ⟨List.find?_some h, ?_⟩
      rcases List.mem_map.mp (List.mem_of_find?_eq_some h) with ⟨directory, -, rfl⟩
      exact ⟨(directory.reverse.dropWhile (· == .char '/')).reverse ++ [.char '/'],
        by simp [pathIn]⟩

/-- A start is recorded, and nothing else happens to the host. -/
theorem start_eq_ok {argv : List Text} {result : ProgramResult} {after : Host}
    (h : host.start path argv = .ok (result, after)) :
    after = { host with started := host.started ++
      [{ executable := path, argv, directory := host.directory }] } := by
  obtain ⟨_, -, h⟩ := bind_eq_ok h
  obtain ⟨_, -, h⟩ := bind_eq_ok h
  obtain ⟨⟨p, node⟩, -, h⟩ := bind_eq_ok h
  dsimp only at h
  split at h
  · cases h
  · obtain ⟨_, -, h⟩ := bind_eq_ok h
    split at h
    · cases h
    · cases h
    · cases h
      rfl

/-- The texts are given to the operating system in order, so the first that cannot be fails. -/
theorem mapM_toSystem_eq_error {argv : List Text}
    (h : argv.mapM Text.toSystem = .error failure) :
    ∃ arg ∈ argv, arg.toSystem = .error failure := by
  induction argv with
  | nil => cases h
  | cons arg rest ih =>
    rw [List.mapM_cons] at h
    rcases bind_eq_error h with harg | ⟨bytes, -, h⟩
    · exact ⟨arg, List.mem_cons_self, harg⟩
    rcases bind_eq_error h with hrest | ⟨_, -, h⟩
    · obtain ⟨other, hother, hfailure⟩ := ih hrest
      exact ⟨other, List.mem_cons_of_mem arg hother, hfailure⟩
    · cases h

theorem askable_of_mapM_toSystem {argv : List Text} {all : List Bytes}
    (h : argv.mapM Text.toSystem = .ok all) : ∀ arg ∈ argv, arg.Askable := by
  induction argv generalizing all with
  | nil => intro arg harg; cases harg
  | cons arg rest ih =>
    rw [List.mapM_cons] at h
    obtain ⟨bytes, harg, h⟩ := bind_eq_ok h
    obtain ⟨others, hrest, -⟩ := bind_eq_ok h
    exact List.forall_mem_cons.mpr ⟨⟨bytes, harg⟩, ih hrest⟩

/-- A program is not even asked for exactly if its path or an argument cannot be given to the
operating system. -/
theorem start_eq_unasked_iff {argv : List Text} :
    (∃ failure, host.start path argv = .error failure ∧ failure.isAnswer = false) ↔
      ¬ path.Askable ∨ ∃ arg ∈ argv, ¬ arg.Askable := by
  constructor
  · rintro ⟨failure, h, hfailure⟩
    rcases bind_eq_error h with hpath | ⟨_, -, h⟩
    · exact .inl (Text.not_askable_iff.mpr ⟨failure, hpath⟩)
    rcases bind_eq_error h with hargv | ⟨_, -, h⟩
    · obtain ⟨arg, harg, hfailure⟩ := mapM_toSystem_eq_error hargv
      exact .inr ⟨arg, harg, Text.not_askable_iff.mpr ⟨failure, hfailure⟩⟩
    rcases bind_eq_error h with hnode | ⟨⟨p, node⟩, -, h⟩
    · have hpath := (nodeAt_eq_error_iff hfailure).mp hnode
      exact .inl (Text.not_askable_iff.mpr ⟨failure, hpath⟩)
    -- Everything else is an answer.
    dsimp only at h
    split at h
    · cases h
      cases hfailure
    rcases bind_eq_error h with hcheck | ⟨_, -, h⟩
    · cases hfailure.symm.trans (isAnswer_of_check hcheck)
    split at h
    · cases h
      cases hfailure
    · next cause _ =>
      cases h
      cases cause <;> cases hfailure
    · cases h
  · intro h
    cases hpath : path.toSystem with
    | error failure =>
      refine ⟨failure, ?_, Text.isAnswer_of_toSystem hpath⟩
      rw [start, hpath]
      rfl
    | ok bytes =>
      obtain ⟨arg, harg, hunfit⟩ := h.resolve_left fun hpath' => hpath' ⟨bytes, hpath⟩
      cases hargv : argv.mapM Text.toSystem with
      | error failure =>
        obtain ⟨other, -, hfailure⟩ := mapM_toSystem_eq_error hargv
        refine ⟨failure, ?_, Text.isAnswer_of_toSystem hfailure⟩
        rw [start, hpath]
        simp only [bind, Except.bind, hargv]
      | ok all => exact absurd (askable_of_mapM_toSystem hargv arg harg) hunfit

end Host

end LineShell
