import LineShell.Completion
import LineShell.Proofs.Command.Execution
import LineShell.Proofs.Host.Lookup
import LineShell.Proofs.Host.FileTree

/-!
# Names that are completed and commands that are found

Completion lists directories and looks at the paths of what it has listed; a command is searched for
by probing paths, and these are written without the slashes at the end of a directory.  The two
agree nevertheless: `completingNames_agree`.
-/

namespace LineShell

namespace Host

def Offers (host : Host) (directory name : Text) : Prop :=
  ∃ entries, host.listDirectory directory = .ok entries ∧ name ∈ entries ∧
    host.isExecutable (entryPath directory name) = true

/-- The name stands for a builtin or for a program. -/
def Knows (host : Host) (directories : List Text) (name : Text) : Prop :=
  (∃ b, Command.ofWords? host directories [name] = some (.builtin b [])) ∨
    ∃ path, Command.ofWords? host directories [name] = some (.external name path [])

variable {host : Host} {directories : List Text} {directory typed path name : Text}

/-! ## What completion lists -/

/-- A directory adds the executable files in it whose names go on from what was typed. -/
theorem programsIn_eq_ok (typed : Text) (hdirectory : directory.Askable) :
    ∃ names, host.programsIn typed directory = .ok names ∧
      ∀ name, name ∈ names ↔ typed <+: name ∧ host.Offers directory name := by
  unfold programsIn
  rcases hlist : host.listDirectory directory with failure | entries
  · -- The directory can be asked for, so its failure is an answer and it is skipped.
    have hanswer : failure.isAnswer = true := by
      by_contra hunasked
      have htext := (listDirectory_eq_error_iff (Bool.eq_false_iff.mpr hunasked)).mp hlist
      exact Text.not_askable_iff.mpr ⟨failure, htext⟩ hdirectory
    have hnone : ∀ name, ¬ host.Offers directory name := by
      rintro name ⟨entries, hentries, -⟩
      cases hlist.symm.trans hentries
    refine ⟨[], if_pos hanswer, fun name => ?_⟩
    simp [hnone name]
  · refine ⟨_, rfl, fun name => ?_⟩
    rw [List.mem_filter, Bool.and_eq_true, List.isPrefixOf_iff_prefix]
    constructor
    · rintro ⟨hmem, hbegins, hexec⟩
      exact ⟨hbegins, entries, hlist, hmem, hexec⟩
    · rintro ⟨hbegins, entries', hentries, hmem, hexec⟩
      cases hlist.symm.trans hentries
      exact ⟨hmem, hbegins, hexec⟩

/-- Lists that can all be made are made, and hold together what they hold one by one. -/
theorem mapM_eq_ok {f : Text → Except Failure (List Text)} {P : Text → Text → Prop}
    (h : ∀ directory ∈ directories, ∃ names, f directory = .ok names ∧
      ∀ name, name ∈ names ↔ P directory name) :
    ∃ lists, directories.mapM f = .ok lists ∧
      ∀ name, name ∈ lists.flatten ↔ ∃ directory ∈ directories, P directory name := by
  induction directories with
  | nil => exact ⟨[], rfl, by simp⟩
  | cons first rest ih =>
    obtain ⟨names, hnames, hfirst⟩ := h first List.mem_cons_self
    obtain ⟨lists, hlists, hrest⟩ := ih fun directory hmem =>
      h directory (List.mem_cons_of_mem first hmem)
    refine ⟨names :: lists, ?_, fun name => ?_⟩
    · rw [List.mapM_cons, hnames, hlists]
      rfl
    · rw [List.flatten_cons, List.mem_append, hfirst, hrest, List.exists_mem_cons_iff]

theorem mem_builtins {name : Text} :
    name ∈ Builtin.all.map Builtin.name ↔ ∃ b : Builtin, b.name = name := by
  rw [List.mem_map]
  constructor
  · rintro ⟨b, -, hb⟩
    exact ⟨b, hb⟩
  · rintro ⟨b, hb⟩
    refine ⟨b, ?_, hb⟩
    cases b <;> decide

/-- The names that complete what was typed, in ascending order: builtins, and what the directories
offer. -/
theorem completingNames_eq_ok (typed : Text)
    (hdirectories : ∀ directory ∈ directories, directory.Askable) :
    ∃ names, host.completingNames directories typed = .ok names ∧ names.Pairwise (· < ·) ∧
      ∀ name, name ∈ names ↔ typed <+: name ∧
        ((∃ b : Builtin, b.name = name) ∨ ∃ directory ∈ directories, host.Offers directory name) := by
  obtain ⟨lists, hlists, hmem⟩ := mapM_eq_ok fun directory hd =>
    host.programsIn_eq_ok typed (hdirectories directory hd)
  let builtins := (Builtin.all.map Builtin.name).filter fun name => typed.isPrefixOf name
  refine ⟨sortedOnce (builtins ++ lists.flatten), ?_, pairwise_sortedOnce _, fun name => ?_⟩
  · rw [completingNames, hlists]
    rfl
  · rw [mem_sortedOnce, List.mem_append, List.mem_filter, mem_builtins,
      List.isPrefixOf_iff_prefix, hmem]
    constructor
    · rintro (⟨hbuiltin, hbegins⟩ | ⟨directory, hd, hbegins, hoffers⟩)
      · exact ⟨hbegins, .inl hbuiltin⟩
      · exact ⟨hbegins, .inr ⟨directory, hd, hoffers⟩⟩
    · rintro ⟨hbegins, hbuiltin | ⟨directory, hd, hoffers⟩⟩
      · exact .inl ⟨hbuiltin, hbegins⟩
      · exact .inr ⟨directory, hd, hbegins, hoffers⟩

/-! ## What a directory offers, and what is found in it -/

theorem entryPath_eq (hne : directory ≠ []) (name : Text) :
    EntryPath (.char '/') directory name (entryPath directory name) := by
  rw [entryPath, if_neg hne]
  split
  · next hlast =>
    obtain ⟨front, rfl⟩ := List.getLast?_eq_some_iff.mp hlast
    exact ⟨front, 1, rfl, by rw [List.append_assoc]; rfl⟩
  · exact ⟨directory, 0, (List.append_nil directory).symm, rfl⟩

/-- What a directory offers has a canonical name without a slash. -/
theorem Offers.canonical (h : host.Offers directory name) :
    name.Canonical ∧ .char '/' ∉ name := by
  obtain ⟨entries, hlist, hmem, -⟩ := h
  obtain ⟨p, node, -, -, -, rfl⟩ := listDirectory_eq_ok_iff.mp hlist
  obtain ⟨bytes, hchild, rfl⟩ := List.mem_map.mp hmem
  rw [FileTree.mem_children] at hchild
  have hslash : slash ∉ bytes := FileTree.written hchild bytes (by simp)
  refine ⟨⟨bytes, rfl⟩, fun hmem => hslash ?_⟩
  exact ((encodes_ofSystem bytes).ascii_mem_iff (a := '/') (by decide)).mpr hmem

/-- Without a name there is only the directory itself, with a slash behind it. -/
theorem Offers.ne_nil (h : host.Offers directory name) (hne : directory ≠ []) : name ≠ [] := by
  rintro rfl
  obtain ⟨-, -, -, hexec⟩ := h
  obtain ⟨p, file, faults, hnode, -⟩ := isExecutable_iff.mp hexec
  obtain ⟨bytes, hpath, -, hreaches, hfind⟩ := nodeAt_eq_ok_iff.mp hnode
  have hdirectory : host.tree.isDirectory p = true := by
    apply hreaches.slash
    obtain ⟨d, n, -, hn, front, k, -, rfl⟩ := (entryPath_eq hne []).exists_toSystem hpath
    rw [Text.toSystem_eq_ok_nil_iff.mpr rfl, Except.ok.injEq] at hn
    rw [← hn]
    exact List.getLast?_concat
  rw [FileTree.isDirectory_of_find? hfind] at hdirectory
  cases hdirectory

/-- What a directory offers is found in it. -/
theorem Offers.isExecutable_pathIn (h : host.Offers directory name) (hne : directory ≠ []) :
    host.isExecutable (pathIn directory name) = true := by
  have hname := h.ne_nil hne
  have hslash := h.canonical.2
  obtain ⟨-, -, -, hexec⟩ := h
  have hentry := entryPath_eq hne name
  obtain ⟨p, file, faults, hnode, -⟩ := isExecutable_iff.mp hexec
  obtain ⟨bytes, hpath, ⟨-, hsize⟩, -⟩ := nodeAt_eq_ok_iff.mp hnode
  refine isExecutable_of_entryPath hentry (entryPath_pathIn directory name) hne hname hslash ?_ hexec
  exact fun b hb => (hentry.length_pathIn_le hpath hb).trans hsize

/-- A name is found if one of the directories holds an executable file of the name. -/
theorem findProgram_eq_some_iff (hname : name ≠ []) (hslash : .char '/' ∉ name) :
    (∃ path, host.findProgram directories name = some path) ↔
      ∃ directory ∈ directories, host.isExecutable (pathIn directory name) = true := by
  rw [findProgram, if_neg hname, if_neg hslash, ← Option.isSome_iff_exists, List.find?_isSome]
  simp

theorem knows_iff : host.Knows directories name ↔
    (∃ b : Builtin, b.name = name) ∨ ∃ path, host.findProgram directories name = some path := by
  constructor
  · rintro (⟨b, hb⟩ | ⟨path, hpath⟩)
    · exact .inl ⟨b, (List.cons.inj (Command.ofWords?_eq_builtin hb)).1.symm⟩
    · exact .inr ⟨path, (Command.ofWords?_eq_external hpath).2.2⟩
  · intro h
    cases hbuiltin : Builtin.ofName? name with
    | some b => exact .inl ⟨b, by rw [Command.ofWords?, hbuiltin]⟩
    | none =>
      rcases h with ⟨b, rfl⟩ | ⟨path, hpath⟩
      · rw [Builtin.ofName?_name] at hbuiltin
        cases hbuiltin
      · refine .inr ⟨path, ?_⟩
        rw [Command.ofWords?, hbuiltin]
        simp only [hpath]

theorem builtin_name_plain (b : Builtin) : b.name ≠ [] ∧ .char '/' ∉ b.name := by
  cases b <;> decide

theorem Knows.ne_nil (h : host.Knows directories name) : name ≠ [] := by
  rintro rfl
  rcases knows_iff.mp h with ⟨b, hb⟩ | ⟨path, hpath⟩
  · exact (builtin_name_plain b).1 hb
  · cases hpath

theorem builtin_name_canonical (b : Builtin) : b.name.Canonical := by
  cases b <;> exact Text.canonical_ofChars _

/-- A builtin, or a name that a directory offers, stands for something. -/
theorem knows_of_offered (hne : ∀ directory ∈ directories, directory ≠ [])
    (h : (∃ b : Builtin, b.name = name) ∨ ∃ directory ∈ directories, host.Offers directory name) :
    name.Canonical ∧ .char '/' ∉ name ∧ host.Knows directories name := by
  rcases h with ⟨b, rfl⟩ | ⟨directory, hd, hoffers⟩
  · exact ⟨builtin_name_canonical b, (builtin_name_plain b).2, knows_iff.mpr (.inl ⟨b, rfl⟩)⟩
  · have hname := hoffers.ne_nil (hne directory hd)
    obtain ⟨hcanonical, hslash⟩ := hoffers.canonical
    refine ⟨hcanonical, hslash, knows_iff.mpr (.inr ?_)⟩
    rw [findProgram_eq_some_iff hname hslash]
    exact ⟨directory, hd, hoffers.isExecutable_pathIn (hne directory hd)⟩

end Host

end LineShell
