import LineShell.Proofs.Host.Lookup
import LineShell.Proofs.Host.Writing

/-!
# Paths that are opened for writing

The last name of a path that is opened for writing may be free.  Such a path leads by all its other
names to a directory, and it has no slash at its end: `opens_of_walk` and `Opens.walk_eq`.  So it
names the same file before and after that file is written or made: `Names.put`.
-/

namespace LineShell

/-- A written path without names is nothing but slashes. -/
theorem Path.eq_slash_of_names_eq_nil {t : Bytes} (h : names t = []) {b : UInt8} (hb : b ∈ t) :
    b = slash := by
  induction t with
  | nil => cases hb
  | cons first rest ih =>
    by_cases hfirst : first = slash
    · have hrest : names rest = [] := by
        rw [hfirst, ← List.nil_append (slash :: rest), names_append] at h
        exact (List.append_eq_nil_iff.mp h).2
      rcases List.mem_cons.mp hb with rfl | hb
      · exact hfirst
      · exact ih hrest hb
    · -- The first name begins with the first byte.
      rw [names, splitOn, if_neg hfirst] at h
      split at h <;> simp at h

namespace FileTree

/-- What the last name of a path that is opened for writing is to a directory: a node that is there,
or a free name at which a file may be made. -/
structure Enters (tree : FileTree) (q : Path) (name : Name) (destination : Destination) : Prop where
  directory : tree.isDirectory q = true
  dot : name ≠ Name.dot
  dots : name ≠ Name.dots
  size : name.length ≤ maxNameBytes
  ends : (destination = .node (q ++ [name]) ∧ (tree.find? (q ++ [name])).isSome = true) ∨
    (destination = .vacant (q ++ [name]) ∧ tree.find? (q ++ [name]) = none ∧
      ((tree.find? q).bind fun node => node.faults.onCreate) = none)

variable {tree after : FileTree} {path p : Path} {name : Name} {front : List Name}
  {destination : Destination} {trailingSlash : Bool}

/-- The last name that is opened for writing is entered, and no slash may stand behind it. -/
theorem walk_last_eq_ok_iff : tree.walk true trailingSlash path [name] = .ok destination ↔
    trailingSlash = false ∧ tree.Enters path name destination := by
  constructor
  · intro h
    rw [walk] at h
    split at h
    · cases h
    split at h
    · cases h
    · next hdirectory hlast =>
      -- No name follows, so a slash or dots would ask for a directory.
      simp only [List.isEmpty_nil, Bool.and_self, Bool.true_and, Bool.not_eq_true,
        Bool.or_eq_false_iff, beq_eq_false_iff_ne, Bool.not_eq_false'] at hdirectory hlast
      obtain ⟨⟨hslash, hdot⟩, hdots⟩ := hlast
      rw [if_neg hdot, if_neg hdots] at h
      split at h
      · cases h
      · next hshort =>
        refine ⟨hslash, by simpa using hdirectory, hdot, hdots, Nat.not_lt.mp hshort, ?_⟩
        split at h
        · next hthere =>
          rw [walk] at h
          exact .inl ⟨(Except.ok.inj h).symm, hthere⟩
        · next hfree =>
          simp only [List.isEmpty_nil, Bool.and_self, if_true] at h
          split at h
          · cases h
          · next hfault =>
            exact .inr ⟨(Except.ok.inj h).symm, Option.not_isSome_iff_eq_none.mp hfree, hfault⟩
  · rintro ⟨rfl, hdirectory, hdot, hdots, hsize, hends⟩
    have hshort : ¬ maxNameBytes < name.length := Nat.not_lt.mpr hsize
    rcases hends with ⟨rfl, hthere⟩ | ⟨rfl, hfree, hfault⟩
    · simp [walk, hdirectory, hdot, hdots, hshort, hthere]
    · simp [walk, hdirectory, hdot, hdots, hshort, hfree, hfault]

/-- All names but the last lead to a directory over nodes that are there. -/
theorem walk_true_eq_ok_iff :
    tree.walk true trailingSlash path (front ++ [name]) = .ok destination ↔
      trailingSlash = false ∧ ∃ q, tree.Leads path front q ∧ tree.Enters q name destination := by
  induction front generalizing path with
  | nil =>
    rw [List.nil_append, walk_last_eq_ok_iff]
    constructor
    · rintro ⟨hslash, henters⟩
      exact ⟨hslash, path, .here path, henters⟩
    · rintro ⟨hslash, q, hleads, henters⟩
      cases hleads
      exact ⟨hslash, henters⟩
  | cons first front ih =>
    have hlast : (true && (front ++ [name]).isEmpty) = false := by simp
    rw [List.cons_append]
    constructor
    · intro h
      obtain ⟨next, hstep⟩ := step_of_walk hlast h
      rw [walk_of_step hstep hlast, ih] at h
      obtain ⟨hslash, q, hleads, henters⟩ := h
      exact ⟨hslash, q, .step hstep hleads, henters⟩
    · rintro ⟨hslash, q, hleads, henters⟩
      cases hleads with
      | step hstep hrest =>
        rw [walk_of_step hstep hlast, ih]
        exact ⟨hslash, q, hrest, henters⟩

theorem Enters.eq_entry {q : Path} (h : tree.Enters q name destination)
    (hp : destination = .node p ∨ destination = .vacant p) : p = q ++ [name] := by
  rcases h.ends with ⟨rfl, -⟩ | ⟨rfl, -⟩ <;> rcases hp with hp | hp <;> cases hp <;> rfl

/-! ## A file that is put where no directory was -/

section

variable (hfile : tree.isDirectory p = false) (hthere : (after.find? p).isSome = true)
  (helsewhere : ∀ q, q ≠ p → after.find? q = tree.find? q)

include hthere helsewhere in
theorem isSome_find?_put {q : Path} (h : (tree.find? q).isSome = true) :
    (after.find? q).isSome = true := by
  by_cases hq : q = p
  · rw [hq]
    exact hthere
  · rw [helsewhere q hq]
    exact h

include hfile helsewhere in
theorem isDirectory_put {q : Path} (h : tree.isDirectory q = true) :
    after.isDirectory q = true := by
  have hq : q ≠ p := by
    rintro rfl
    rw [hfile] at h
    cases h
  rw [isDirectory_congr (helsewhere q hq)]
  exact h

include hfile hthere helsewhere in
/-- A file that is put somewhere stands in no way. -/
theorem Leads.put {names : List Name} {q : Path} (h : tree.Leads path names q) :
    after.Leads path names q := by
  induction h with
  | here path => exact .here path
  | step hstep _ ih =>
    refine .step ?_ ih
    cases hstep with
    | stay hdirectory => exact .stay (isDirectory_put hfile helsewhere hdirectory)
    | up hdirectory => exact .up (isDirectory_put hfile helsewhere hdirectory)
    | down hdirectory hdot hdots hsize hnext =>
      exact .down (isDirectory_put hfile helsewhere hdirectory) hdot hdots hsize
        (isSome_find?_put hthere helsewhere hnext)

include hfile hthere helsewhere in
/-- Behind the creation of a file its name is that of a node. -/
theorem Enters.put {q : Path} (h : tree.Enters q name destination)
    (hp : destination = .node p ∨ destination = .vacant p) : after.Enters q name (.node p) := by
  have hentry := h.eq_entry hp
  have hdirectory := isDirectory_put hfile helsewhere h.directory
  refine ⟨hdirectory, h.dot, h.dots, h.size, .inl ⟨congrArg Destination.node hentry, ?_⟩⟩
  rw [← hentry]
  exact hthere

end

end FileTree

namespace Host

structure Opens (host : Host) (path : Bytes) (destination : Destination) : Prop where
  size : path.length ≤ maxPathBytes
  start : (host.tree.find? (host.origin path)).isSome = true
  slash : path.getLast? ≠ some slash
  enters : ∃ front name q, Path.names path = front ++ [name] ∧
    host.tree.Leads (host.origin path) front q ∧ host.tree.Enters q name destination

variable {host after : Host} {path : Text} {bytes : Bytes} {p : Path} {destination : Destination}

/-- A walk that may create a file takes all names but the last as steps and enters the last. -/
theorem opens_of_locate (h : host.locate true bytes = .ok destination)
    (hfile : ∀ p, destination = .node p → host.tree.isDirectory p = false) :
    host.Opens bytes destination := by
  unfold locate at h
  split at h
  · cases h
  split at h
  · cases h
  split at h
  · cases h
  · next hne hlong hstart =>
    have hstart : (host.tree.find? (host.origin bytes)).isSome = true := by
      simpa [Option.isSome_iff_ne_none] using hstart
    have hwalk : host.tree.walk true (bytes.getLast? == some slash) (host.origin bytes)
          (Path.names bytes) = .ok destination ∧
        ∀ p, destination = .node p → (bytes.getLast? == some slash) = false := by
      dsimp only at h
      split at h
      · cases h
      · next p hwalk =>
        cases h
        exact ⟨hwalk, fun p hp => Destination.noConfusion hp⟩
      · next p hwalk =>
        split at h
        · cases h
        · next hend =>
          cases h
          refine ⟨hwalk, fun q hq => ?_⟩
          cases hq
          simpa [hfile p rfl] using hend
    obtain ⟨hwalk, hend⟩ := hwalk
    rcases List.eq_nil_or_concat' (Path.names bytes) with hnames | ⟨front, name, hnames⟩
    · -- There are slashes alone, so they lead to the root, and that should be a directory.
      rw [hnames, FileTree.walk] at hwalk
      have hslash : bytes.getLast? = some slash := by
        rw [List.getLast?_eq_some_getLast hne,
          Path.eq_slash_of_names_eq_nil hnames (List.getLast_mem hne)]
      have hclash := hend _ (Except.ok.inj hwalk).symm
      rw [hslash] at hclash
      cases hclash
    · rw [hnames, FileTree.walk_true_eq_ok_iff] at hwalk
      obtain ⟨hslash, q, hleads, henters⟩ := hwalk
      exact ⟨Nat.not_lt.mp hlong, hstart, by simpa using hslash,
        front, name, q, hnames, hleads, henters⟩

/-- What enters a file so is found by a walk. -/
theorem Opens.locate_eq (h : host.Opens bytes destination) :
    host.locate true bytes = .ok destination := by
  obtain ⟨hsize, hstart, hslash, front, name, q, hnames, hleads, henters⟩ := h
  have hne : bytes ≠ [] := by
    rintro rfl
    exact absurd hnames (by simp [Path.names, splitOn])
  have hslash : (bytes.getLast? == some LineShell.slash) = false := by simpa using hslash
  have hwalk : host.tree.walk true false (host.origin bytes) (Path.names bytes) =
      .ok destination := by
    rw [hnames, FileTree.walk_true_eq_ok_iff]
    exact ⟨rfl, q, hleads, henters⟩
  have hthere : (host.tree.find? (host.origin bytes)).isNone = false := by
    simpa [Option.isSome_iff_ne_none] using hstart
  rw [locate, if_neg hne, if_neg (Nat.not_lt.mpr hsize), hthere]
  simp only [Bool.false_eq_true, if_false, hslash, hwalk, Bool.false_and]
  cases destination <;> rfl

instance (host : Host) (path : Text) (p : Path) : Decidable (host.Names path p) :=
  inferInstanceAs (Decidable (_ ∨ _))

theorem Names.opens (h : host.Names path p) (hfile : host.tree.isDirectory p = false) :
    ∃ bytes destination, path.toSystem = .ok bytes ∧
      (destination = .node p ∨ destination = .vacant p) ∧ host.Opens bytes destination := by
  rcases h with hwalk | hwalk
  · obtain ⟨bytes, hpath, hlocate⟩ := walk_eq_ok_iff.mp hwalk
    refine ⟨bytes, .node p, hpath, .inl rfl, opens_of_locate hlocate fun q hq => ?_⟩
    cases hq
    exact hfile
  · obtain ⟨bytes, hpath, hlocate⟩ := walk_eq_ok_iff.mp hwalk
    exact ⟨bytes, .vacant p, hpath, .inr rfl,
      opens_of_locate hlocate fun q hq => Destination.noConfusion hq⟩

/-- A path that leads to no directory and not to a free name leads to a node that is there. -/
theorem isSome_find?_of_walk (h : host.walk true path = .ok (.node p))
    (hfile : host.tree.isDirectory p = false) : (host.tree.find? p).isSome = true := by
  obtain ⟨bytes, -, hlocate⟩ := walk_eq_ok_iff.mp h
  have hopens : host.Opens bytes (.node p) := by
    refine opens_of_locate hlocate fun q hq => ?_
    cases hq
    exact hfile
  obtain ⟨front, name, q, -, -, henters⟩ := hopens.enters
  rcases henters.ends with ⟨hp, hthere⟩ | ⟨hp, -⟩
  · cases hp
    exact hthere
  · cases hp

/-- A path names the same file before and after that file is written or made. -/
theorem Names.put {node : Node} (h : host.Names path p) (hfile : host.tree.isDirectory p = false)
    (hput : Put host p node after) : after.Names path p := by
  have hthere : (after.tree.find? p).isSome = true := by
    rw [hput.here]
    rfl
  obtain ⟨bytes, destination, hpath, hp, hopens⟩ := h.opens hfile
  have horigin : after.origin bytes = host.origin bytes := by
    rw [origin, origin, hput.directory]
  obtain ⟨front, name, q, hnames, hleads, henters⟩ := hopens.enters
  have hopened : after.Opens bytes (.node p) := by
    refine ⟨hopens.size, ?_, hopens.slash, front, name, q, hnames, ?_,
      henters.put hfile hthere hput.elsewhere hp⟩
    · rw [horigin]
      exact FileTree.isSome_find?_put hthere hput.elsewhere hopens.start
    · rw [horigin]
      exact hleads.put hfile hthere hput.elsewhere
  exact .inl (walk_eq_ok_iff.mpr ⟨bytes, hpath, hopened.locate_eq⟩)

end Host

end LineShell
