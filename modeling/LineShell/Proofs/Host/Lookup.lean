import Mathlib.Data.List.DropRight
import LineShell.Proofs.Host.Operation

/-!
# Where a path leads

A walk over nodes that are there takes one step for every name: `walk_false_eq_ok_iff`.  So where a
path leads depends on its names and on where it starts, and no more: `nodeAt_eq_ok_iff`.  An entry
of a directory is reached by one step from the directory, however many slashes are written between
the two: `reaches_entry_iff`.
-/

namespace LineShell

namespace FileTree

/-- Where one name leads from a directory. -/
inductive Step (tree : FileTree) (path : Path) : Name → Path → Prop
  | stay : tree.isDirectory path = true → Step tree path Name.dot path
  | up : tree.isDirectory path = true → Step tree path Name.dots path.dropLast
  | down {name : Name} : tree.isDirectory path = true → name ≠ Name.dot → name ≠ Name.dots →
      name.length ≤ maxNameBytes → (tree.find? (path ++ [name])).isSome = true →
      Step tree path name (path ++ [name])

/-- Where names lead from a node, one after another. -/
inductive Leads (tree : FileTree) : Path → List Name → Path → Prop
  | here (path : Path) : Leads tree path [] path
  | step {path next p : Path} {name : Name} {rest : List Name} : tree.Step path name next →
      Leads tree next rest p → Leads tree path (name :: rest) p

variable {tree : FileTree} {path p : Path} {name : Name} {rest : List Name}

theorem Step.isDirectory (h : tree.Step path name p) : tree.isDirectory path = true := by
  cases h with
  | stay hdirectory => exact hdirectory
  | up hdirectory => exact hdirectory
  | down hdirectory => exact hdirectory

/-- The last name of a path that may be made is walked in another way. -/
theorem walk_of_step {next : Path} {create : Bool} (h : tree.Step path name next)
    (hlast : (create && rest.isEmpty) = false) (trailingSlash : Bool) :
    tree.walk create trailingSlash path (name :: rest) =
      tree.walk create trailingSlash next rest := by
  cases h with
  | stay hdirectory => simp [walk, hdirectory, hlast]
  | up hdirectory => simp [walk, hdirectory, hlast]
  | down hdirectory hdot hdots hsize hthere =>
    have hshort : ¬ maxNameBytes < name.length := Nat.not_lt.mpr hsize
    rw [walk, hdirectory, hlast, if_neg hdot, if_neg hdots, if_neg hshort, if_pos hthere]
    rfl

/-- A walk that succeeds takes its first name as a step. -/
theorem step_of_walk {create trailingSlash : Bool} {destination : Destination}
    (hlast : (create && rest.isEmpty) = false)
    (h : tree.walk create trailingSlash path (name :: rest) = .ok destination) :
    ∃ next, tree.Step path name next := by
  rw [walk] at h
  cases hdirectory : tree.isDirectory path with
  | false =>
    rw [hdirectory] at h
    cases h
  | true =>
    rw [hdirectory, hlast] at h
    simp only [Bool.not_true, Bool.false_and, Bool.false_eq_true, if_false] at h
    -- The order of the questions is that of `walk`: a dot, two dots, the size, the entry.
    split at h
    · next hdot =>
      rw [hdot]
      exact ⟨path, .stay hdirectory⟩
    split at h
    · next hdots =>
      rw [hdots]
      exact ⟨path.dropLast, .up hdirectory⟩
    split at h
    · cases h
    split at h
    · next hdot hdots hshort hthere =>
      exact ⟨path ++ [name], .down hdirectory hdot hdots (Nat.not_lt.mp hshort) hthere⟩
    · cases h

/-- A walk over nodes that are there finds the node that the names lead to. -/
theorem walk_false_eq_ok_iff {trailingSlash : Bool} {names : List Name}
    {destination : Destination} :
    tree.walk false trailingSlash path names = .ok destination ↔
      ∃ p, destination = .node p ∧ tree.Leads path names p := by
  -- The walk takes its first name as a step and goes on from there.
  induction names generalizing path with
  | nil =>
    constructor
    · intro h
      rw [walk, Except.ok.injEq] at h
      exact ⟨path, h.symm, .here path⟩
    · rintro ⟨p, rfl, hleads⟩
      cases hleads
      rw [walk]
  | cons name rest ih =>
    constructor
    · intro h
      obtain ⟨next, hstep⟩ := step_of_walk (Bool.false_and _) h
      rw [walk_of_step hstep (Bool.false_and _), ih] at h
      obtain ⟨p, hp, hleads⟩ := h
      exact ⟨p, hp, .step hstep hleads⟩
    · rintro ⟨p, hp, hleads⟩
      cases hleads with
      | step hstep hrest =>
        rw [walk_of_step hstep (Bool.false_and _), ih]
        exact ⟨p, hp, hrest⟩

/-- The last name is a step from where the others lead. -/
theorem leads_concat_iff {front : List Name} :
    tree.Leads path (front ++ [name]) p ↔
      ∃ q, tree.Leads path front q ∧ tree.Step q name p := by
  -- Induction on the names in front, since a walk begins at its first name.
  induction front generalizing path with
  | nil =>
    constructor
    · intro h
      cases h with
      | step hstep hrest =>
        cases hrest
        exact ⟨path, .here path, hstep⟩
    · rintro ⟨q, hleads, hstep⟩
      cases hleads
      exact .step hstep (.here p)
  | cons first front ih =>
    constructor
    · intro h
      cases h with
      | step hfirst hrest =>
        obtain ⟨q, hleads, hstep⟩ := ih.mp hrest
        exact ⟨q, .step hfirst hleads, hstep⟩
    · rintro ⟨q, hleads, hstep⟩
      cases hleads with
      | step hfirst hrest => exact .step hfirst (ih.mpr ⟨q, hrest, hstep⟩)

end FileTree

namespace Host

/-- A written path leads to a node by its names.  With a slash at its end it has to lead to a
directory. -/
structure Reaches (host : Host) (path : Bytes) (p : Path) : Prop where
  start : (host.tree.find? (host.origin path)).isSome = true
  leads : host.tree.Leads (host.origin path) (Path.names path) p
  slash : path.getLast? = some slash → host.tree.isDirectory p = true

variable {host : Host} {path : Text} {bytes : Bytes} {p : Path}

/-- Bytes that may not create anything lead to the node that their names lead to. -/
theorem locate_false_eq_ok_iff {destination : Destination} :
    host.locate false bytes = .ok destination ↔ bytes ≠ [] ∧ bytes.length ≤ maxPathBytes ∧
      ∃ p, destination = .node p ∧ host.Reaches bytes p := by
  by_cases hempty : bytes = []
  · simp [locate, hempty]
  by_cases hlong : maxPathBytes < bytes.length
  · rw [locate, if_neg hempty, if_pos hlong]
    refine iff_of_false (by simp) ?_
    rintro ⟨-, hsize, -⟩
    exact absurd hsize (Nat.not_le.mpr hlong)
  have hsize : bytes.length ≤ maxPathBytes := Nat.not_lt.mp hlong
  rw [locate, if_neg hempty, if_neg hlong]
  constructor
  · intro h
    refine ⟨hempty, hsize, ?_⟩
    split at h
    · cases h
    · next hstart =>
      have hstart : (host.tree.find? (host.origin bytes)).isSome = true := by
        simpa [Option.isSome_iff_ne_none] using hstart
      dsimp only at h
      split at h
      · cases h
      -- A walk that may create nothing never ends at a free name.
      · next p hwalk =>
        obtain ⟨q, hq, -⟩ := FileTree.walk_false_eq_ok_iff.mp hwalk
        cases hq
      · next p hwalk =>
        obtain ⟨q, hq, hleads⟩ := FileTree.walk_false_eq_ok_iff.mp hwalk
        cases hq
        split at h
        · cases h
        · next hslash =>
          cases h
          refine ⟨p, rfl, hstart, hleads, fun hlast => ?_⟩
          simpa [hlast] using hslash
  · rintro ⟨-, -, p, rfl, hstart, hleads, hslash⟩
    have hwalk : host.tree.walk false (bytes.getLast? == some slash) (host.origin bytes)
        (Path.names bytes) = .ok (.node p) :=
      FileTree.walk_false_eq_ok_iff.mpr ⟨p, rfl, hleads⟩
    have hthere : (host.tree.find? (host.origin bytes)).isNone = false := by
      simpa [Option.isSome_iff_ne_none] using hstart
    -- A slash at the end asks for a directory, and no slash asks for nothing.
    have hend : (bytes.getLast? == some slash && !host.tree.isDirectory p) = false := by
      by_cases hlast : bytes.getLast? = some slash
      · simp [hslash hlast]
      · simp [hlast]
    simp [hthere, hwalk, hend]

/-- A path leads to a node if it can be given to the operating system and its names lead there. -/
theorem nodeAt_eq_ok_iff {node : Node} : host.nodeAt path = .ok (p, node) ↔
    ∃ bytes, path.toSystem = .ok bytes ∧ (bytes ≠ [] ∧ bytes.length ≤ maxPathBytes) ∧
      host.Reaches bytes p ∧ host.tree.find? p = some node := by
  constructor
  · intro h
    unfold nodeAt at h
    split at h
    · cases h
    · cases h
    · next q hwalk =>
      split at h
      · cases h
      · next found hfind =>
        cases h
        obtain ⟨bytes, hpath, hlocate⟩ := walk_eq_ok_iff.mp hwalk
        obtain ⟨hne, hsize, q, hq, hreaches⟩ := locate_false_eq_ok_iff.mp hlocate
        cases hq
        exact ⟨bytes, hpath, ⟨hne, hsize⟩, hreaches, hfind⟩
  · rintro ⟨bytes, hpath, ⟨hne, hsize⟩, hreaches, hfind⟩
    have hlocate := locate_false_eq_ok_iff.mpr ⟨hne, hsize, p, rfl, hreaches⟩
    have hwalk := walk_eq_ok_iff.mpr ⟨bytes, hpath, hlocate⟩
    simp only [nodeAt, hwalk, hfind]

theorem stat_eq_ok_some_iff {file : RegularFile} : host.stat path = .ok (some file) ↔
    ∃ p faults, host.nodeAt path = .ok (p, { content := .file file, faults }) ∧
      faults.onStat = none := by
  constructor
  · intro h
    obtain ⟨⟨p, content, faults⟩, hnode, h⟩ := bind_eq_ok h
    obtain ⟨_, hcheck, h⟩ := bind_eq_ok h
    cases content with
    | directory => cases h
    | file found =>
      cases h
      exact ⟨p, faults, hnode, check_eq_ok hcheck⟩
  · rintro ⟨p, faults, hnode, hfault⟩
    rw [stat, hnode]
    simp only [bind, Except.bind, hfault, check]
    rfl

theorem isExecutable_iff_stat : host.isExecutable path = true ↔
    ∃ file, host.stat path = .ok (some file) ∧ isExecutableMode file.mode = true := by
  rw [isExecutable]
  rcases hstat : host.stat path with failure | found
  · simp
  · cases found with
    | none => simp
    | some file => simp

/-- An executable file is a regular one of such a mode that can be looked at. -/
theorem isExecutable_iff : host.isExecutable path = true ↔ ∃ p file faults,
    host.nodeAt path = .ok (p, { content := .file file, faults }) ∧ faults.onStat = none ∧
      isExecutableMode file.mode = true := by
  rw [isExecutable_iff_stat]
  constructor
  · rintro ⟨file, hstat, hmode⟩
    obtain ⟨p, faults, hnode, hfault⟩ := stat_eq_ok_some_iff.mp hstat
    exact ⟨p, file, faults, hnode, hfault, hmode⟩
  · rintro ⟨p, file, faults, hnode, hfault, hmode⟩
    exact ⟨file, stat_eq_ok_some_iff.mpr ⟨p, faults, hnode, hfault⟩, hmode⟩

end Host

/-! ## Entries of a directory -/

/-- The path names an entry of a directory.  Of the slashes at the end of the directory some may be
left out. -/
def EntryPath {α : Type} (slash : α) (directory name path : List α) : Prop :=
  ∃ front n, directory = front ++ List.replicate n slash ∧ path = front ++ slash :: name

section

variable {directory path : Bytes} {name : Name}

/-- The name of an entry is the last name of its path. -/
theorem EntryPath.names (h : EntryPath slash directory name path) (hne : name ≠ [])
    (hslash : slash ∉ name) : Path.names path = Path.names directory ++ [name] := by
  obtain ⟨front, n, rfl, rfl⟩ := h
  rw [Path.names_append, Path.names_append_slashes, Path.names_of_not_mem hne hslash]

/-- Where nothing stands in front of the slashes, the path is as absolute as the directory. -/
theorem EntryPath.origin_eq (h : EntryPath slash directory name path) (hne : directory ≠ [])
    (host : Host) : host.origin path = host.origin directory := by
  obtain ⟨front, n, rfl, rfl⟩ := h
  cases front with
  | cons c front => rfl
  | nil =>
    cases n with
    | zero => exact absurd rfl hne
    | succ n => rfl

theorem EntryPath.getLast?_ne (h : EntryPath slash directory name path) (hne : name ≠ [])
    (hslash : slash ∉ name) : path.getLast? ≠ some slash := by
  obtain ⟨front, n, -, rfl⟩ := h
  obtain rfl | ⟨init, last, rfl⟩ := List.eq_nil_or_concat' name
  · exact absurd rfl hne
  · intro hlast
    rw [← List.cons_append, ← List.append_assoc, List.getLast?_concat, Option.some.injEq] at hlast
    exact hslash (by simp [hlast])

/-- Only the last name leads to the entry: the rest of the path is the directory's own. -/
theorem reaches_entry_iff {host : Host} {p : Path} (h : EntryPath slash directory name path)
    (hdirectory : directory ≠ []) (hne : name ≠ []) (hslash : slash ∉ name) :
    host.Reaches path p ↔ ∃ q, host.Reaches directory q ∧ host.tree.Step q name p := by
  have horigin := h.origin_eq hdirectory host
  have hnames := h.names hne hslash
  constructor
  · rintro ⟨hstart, hleads, -⟩
    rw [horigin, hnames, FileTree.leads_concat_iff] at hleads
    obtain ⟨q, hleads, hstep⟩ := hleads
    rw [horigin] at hstart
    exact ⟨q, ⟨hstart, hleads, fun _ => hstep.isDirectory⟩, hstep⟩
  · rintro ⟨q, ⟨hstart, hleads, -⟩, hstep⟩
    refine ⟨?_, ?_, fun hlast => absurd hlast (h.getLast?_ne hne hslash)⟩
    · rw [horigin]
      exact hstart
    · rw [horigin, hnames, FileTree.leads_concat_iff]
      exact ⟨q, hleads, hstep⟩

end

/-! ## Entries that are named by texts -/

theorem toSystem_slashes (n : Nat) :
    Text.toSystem (List.replicate n (.char '/')) = .ok (List.replicate n slash) := by
  induction n with
  | zero => exact Text.toSystem_eq_ok_nil_iff.mpr rfl
  | succ n ih =>
    have hslash : Text.toSystem [.char '/'] = .ok [slash] := by decide
    exact Text.toSystem_append_eq_ok_iff.mpr ⟨[slash], List.replicate n slash, hslash, ih, rfl⟩

/-- A slash among the bytes is a slash of the text. -/
theorem slash_mem_iff {t : Text} {data : Bytes} (h : t.toSystem = .ok data) :
    slash ∈ data ↔ .char '/' ∈ t := by
  have hbytes := (Text.toSystem_eq_ok_iff.mp h).1
  exact hbytes.ascii_mem_iff (a := '/') (by decide)

theorem ne_nil_of_toSystem {t : Text} {data : Bytes} (h : t.toSystem = .ok data) :
    data ≠ [] ↔ t ≠ [] := by
  rw [not_iff_not, ← Text.toSystem_eq_ok_nil_iff, h]
  exact ⟨congrArg _, Except.ok.inj⟩

section

variable {directory name path : Text} {bytes : Bytes}

theorem toSystem_slash_cons_iff : Text.toSystem (.char '/' :: name) = .ok bytes ↔
    ∃ n, name.toSystem = .ok n ∧ bytes = slash :: n := by
  have hslash : Text.toSystem [.char '/'] = .ok [slash] := by decide
  rw [← List.singleton_append, Text.toSystem_append_eq_ok_iff]
  constructor
  · rintro ⟨front, n, hfront, hname, rfl⟩
    cases hslash.symm.trans hfront
    exact ⟨n, hname, rfl⟩
  · rintro ⟨n, hname, rfl⟩
    exact ⟨[slash], n, hslash, hname, rfl⟩

/-- The bytes of the path of an entry name the entry in the bytes of the directory. -/
theorem EntryPath.exists_toSystem (h : EntryPath (.char '/') directory name path)
    (hpath : path.toSystem = .ok bytes) : ∃ d n, directory.toSystem = .ok d ∧
      name.toSystem = .ok n ∧ EntryPath slash d n bytes := by
  obtain ⟨front, k, rfl, rfl⟩ := h
  obtain ⟨f, rest, hfront, hrest, rfl⟩ := Text.toSystem_append_eq_ok_iff.mp hpath
  obtain ⟨n, hname, rfl⟩ := toSystem_slash_cons_iff.mp hrest
  exact ⟨f ++ List.replicate k slash, n,
    Text.toSystem_append_eq_ok_iff.mpr ⟨f, _, hfront, toSystem_slashes k, rfl⟩, hname, f, k, rfl, rfl⟩

/-- The path of an entry can be asked for if the directory and the name can. -/
theorem EntryPath.askable_iff (h : EntryPath (.char '/') directory name path) :
    path.Askable ↔ directory.Askable ∧ name.Askable := by
  constructor
  · rintro ⟨bytes, hpath⟩
    obtain ⟨d, n, hdirectory, hname, -⟩ := h.exists_toSystem hpath
    exact ⟨⟨d, hdirectory⟩, ⟨n, hname⟩⟩
  · rintro ⟨hdirectory, n, hname⟩
    obtain ⟨front, k, rfl, rfl⟩ := h
    exact Text.askable_append_iff.mpr
      ⟨(Text.askable_append_iff.mp hdirectory).1, _, toSystem_slash_cons_iff.mpr ⟨n, hname, rfl⟩⟩

/-- The path of a name that is searched for is that of an entry. -/
theorem entryPath_pathIn (directory name : Text) :
    EntryPath (.char '/') directory name (pathIn directory name) := by
  have hslashes := List.eq_replicate_of_mem (l := directory.rtakeWhile (· == .char '/'))
    (a := CodePoint.char '/') fun c hc => by simpa using List.mem_rtakeWhile_imp hc
  refine ⟨directory.rdropWhile (· == .char '/'), (directory.rtakeWhile (· == .char '/')).length, ?_,
    rfl⟩
  rw [← hslashes, List.rdropWhile_append_rtakeWhile]

/-- No way to write the path of an entry is shorter than the one without any slash too many. -/
theorem EntryPath.length_pathIn_le {shortest : Bytes}
    (h : EntryPath (.char '/') directory name path) (hpath : path.toSystem = .ok bytes)
    (hshortest : (pathIn directory name).toSystem = .ok shortest) :
    shortest.length ≤ bytes.length := by
  obtain ⟨front, k, rfl, rfl⟩ := h
  have hslashes : ∀ c ∈ List.replicate k (CodePoint.char '/'), (c == .char '/') = true :=
    fun c hc => by
      rw [List.eq_of_mem_replicate hc]
      rfl
  have hpathIn : pathIn (front ++ List.replicate k (.char '/')) name =
      front.rdropWhile (· == .char '/') ++ .char '/' :: name := by
    rw [pathIn, List.reverse_append, List.reverse_replicate, List.dropWhile_append_of_pos hslashes]
    rfl
  rw [← List.rdropWhile_append_rtakeWhile (p := (· == .char '/')) (l := front)] at hpath
  obtain ⟨f, last, hfront, hlast, rfl⟩ := Text.toSystem_append_eq_ok_iff.mp hpath
  obtain ⟨kept, left, hkept, -, rfl⟩ := Text.toSystem_append_eq_ok_iff.mp hfront
  have hsame := Text.toSystem_append_eq_ok_iff.mpr ⟨kept, last, hkept, hlast, rfl⟩
  rw [hpathIn, hsame, Except.ok.injEq] at hshortest
  rw [← hshortest, List.length_append, List.length_append, List.length_append]
  omega

def Text.Short (path : Text) : Prop :=
  ∀ bytes, path.toSystem = .ok bytes → bytes.length ≤ maxPathBytes

instance (path : Text) : Decidable path.Short :=
  match h : path.toSystem with
  | .error failure => isTrue fun bytes hbytes => by cases h.symm.trans hbytes
  | .ok bytes =>
    decidable_of_iff (bytes.length ≤ maxPathBytes)
      ⟨fun hsize other hother => by cases h.symm.trans hother; exact hsize,
        fun hshort => hshort bytes h⟩

/-- Whether an entry is executable does not depend on how many slashes stand in front of it, unless
the path gets too long. -/
theorem isExecutable_of_entryPath {host : Host} {other : Text}
    (h : EntryPath (.char '/') directory name path)
    (h' : EntryPath (.char '/') directory name other)
    (hdirectory : directory ≠ []) (hne : name ≠ []) (hslash : .char '/' ∉ name)
    (hshort : other.Short) (hexec : host.isExecutable path = true) :
    host.isExecutable other = true := by
  obtain ⟨p, file, faults, hnode, hfault, hmode⟩ := Host.isExecutable_iff.mp hexec
  obtain ⟨bytes, hpath, -, hreaches, hfind⟩ := Host.nodeAt_eq_ok_iff.mp hnode
  obtain ⟨b, hother⟩ := h'.askable_iff.mpr (h.askable_iff.mp ⟨bytes, hpath⟩)
  obtain ⟨d, n, hd, hn, hentry⟩ := h.exists_toSystem hpath
  obtain ⟨d', n', hd', hn', hentry'⟩ := h'.exists_toSystem hother
  -- Both spellings encode the same directory and the same name.
  cases hd.symm.trans hd'
  cases hn.symm.trans hn'
  have hdne := (ne_nil_of_toSystem hd).mpr hdirectory
  have hnne := (ne_nil_of_toSystem hn).mpr hne
  have hslash' : slash ∉ n := fun hmem => hslash ((slash_mem_iff hn).mp hmem)
  have hbne : b ≠ [] := by
    obtain ⟨front, k, -, rfl⟩ := hentry'
    simp
  -- So both lead to the entry of that name in that directory.
  have hreaches' : host.Reaches b p :=
    (reaches_entry_iff hentry' hdne hnne hslash').mpr
      ((reaches_entry_iff hentry hdne hnne hslash').mp hreaches)
  have hnode' := Host.nodeAt_eq_ok_iff.mpr ⟨b, hother, ⟨hbne, hshort b hother⟩, hreaches', hfind⟩
  exact Host.isExecutable_iff.mpr ⟨p, file, faults, hnode', hfault, hmode⟩

end

end LineShell
