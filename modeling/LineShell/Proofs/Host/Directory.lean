import Mathlib.Data.List.Induction
import LineShell.Proofs.Host.Lookup
import LineShell.Proofs.Host.FileTree

/-!
# The working directory

The working directory is kept as the names that lead down to it from the root.  A change of the
directory takes no other names in, whatever dots and slashes are written in the path:
`changeDirectory_normal`.  So the written form of a directory leads back to it as long as it is
there: `changeDirectory_render`.
-/

namespace LineShell

theorem subset_of_mem_splitOn {α : Type} [DecidableEq α] {separator : α} {t piece : List α}
    (h : piece ∈ splitOn separator t) : piece ⊆ t := by
  induction t generalizing piece with
  | nil =>
    rw [List.mem_singleton.mp h]
    exact List.Subset.refl []
  | cons c rest ih =>
    rw [splitOn] at h
    split at h
    · rcases List.mem_cons.mp h with rfl | h
      · exact List.nil_subset _
      · exact List.subset_cons_of_subset c (ih h)
    · -- The character stands in front of the first piece.
      cases hs : splitOn separator rest with
      | nil => exact absurd hs (splitOn_ne_nil separator rest)
      | cons first pieces =>
        rw [hs] at h ih
        rcases List.mem_cons.mp h with rfl | h
        · exact List.cons_subset_cons c (ih List.mem_cons_self)
        · exact List.subset_cons_of_subset c (ih (List.mem_cons_of_mem first h))

/-- A name that an entry of a directory can have: every byte but the slash and zero may stand in it,
and the names of one and two dots are taken. -/
structure EntryName (name : Name) : Prop where
  ne_nil : name ≠ []
  slash : slash ∉ name
  zero : 0 ∉ name
  dot : name ≠ Name.dot
  dots : name ≠ Name.dots

instance (name : Name) : Decidable (EntryName name) :=
  decidable_of_iff
    (name ≠ [] ∧ slash ∉ name ∧ 0 ∉ name ∧ name ≠ Name.dot ∧ name ≠ Name.dots)
    ⟨fun ⟨hne, hslash, hzero, hdot, hdots⟩ => ⟨hne, hslash, hzero, hdot, hdots⟩,
      fun ⟨hne, hslash, hzero, hdot, hdots⟩ => ⟨hne, hslash, hzero, hdot, hdots⟩⟩

namespace Path

/-- A path is normal if it leads one step down with every name. -/
def Normal (p : Path) : Prop := ∀ name ∈ p, EntryName name

instance (p : Path) : Decidable p.Normal := List.decidableBAll _ p

theorem Normal.dropLast {p : Path} (h : p.Normal) : Normal p.dropLast :=
  fun name hname => h name (List.dropLast_subset p hname)

theorem Normal.concat {p : Path} {name : Name} (h : p.Normal) (hname : EntryName name) :
    (p ++ [name]).Normal := by
  rw [Normal, List.forall_mem_append]
  exact ⟨h, by simpa using hname⟩

theorem Normal.names_render {p : Path} (h : p.Normal) : names p.render = p :=
  Path.names_render fun name hname => ⟨(h name hname).ne_nil, (h name hname).slash⟩

theorem head?_render (p : Path) : p.render.head? = some slash := by
  cases p with
  | nil => rfl
  | cons name rest =>
    rw [render_cons]
    rfl

/-- A byte of a written path is a slash or stands in a name. -/
theorem mem_render {p : Path} {b : UInt8} (h : b ∈ p.render) :
    b = slash ∨ ∃ name ∈ p, b ∈ name := by
  fun_induction render p with
  | case1 => exact .inl (List.mem_singleton.mp h)
  | case2 name =>
    rcases List.mem_cons.mp h with hslash | hname
    · exact .inl hslash
    · exact .inr ⟨name, List.mem_cons_self, hname⟩
  | case3 name next rest ih =>
    rcases List.mem_append.mp h with hfirst | hrest
    · rcases List.mem_cons.mp hfirst with hslash | hname
      · exact .inl hslash
      · exact .inr ⟨name, List.mem_cons_self, hname⟩
    · rcases ih hrest with hslash | ⟨other, hother, hb⟩
      · exact .inl hslash
      · exact .inr ⟨other, List.mem_cons_of_mem name hother, hb⟩

theorem Normal.zero_not_mem_render {p : Path} (h : p.Normal) : 0 ∉ p.render := by
  intro hmem
  rcases mem_render hmem with hslash | ⟨name, hname, hzero⟩
  · exact absurd hslash (by decide)
  · exact (h name hname).zero hzero

/-- The path is a slash alone, or it has a slash in front of each of its names, and none of the
names is empty or made of one or two dots. -/
def IsNormalForm (t : Bytes) : Prop :=
  t = [slash] ∨ ∃ rest, t = slash :: rest ∧
    ∀ name ∈ splitOn slash rest, name ≠ [] ∧ name ≠ Name.dot ∧ name ≠ Name.dots

def Short (t : Bytes) : Prop :=
  t.length ≤ maxPathBytes ∧ ∀ name ∈ names t, name.length ≤ maxNameBytes

instance (t : Bytes) : Decidable (Short t) := inferInstanceAs (Decidable (_ ∧ _))

theorem Normal.isNormalForm_render {p : Path} (h : p.Normal) : IsNormalForm p.render := by
  cases p with
  | nil => exact .inl rfl
  | cons first rest =>
    refine .inr ⟨_, render_cons first rest, fun name hname => ?_⟩
    rw [splitOn_joinWith (List.cons_ne_nil first rest) fun n hn => (h n hn).slash] at hname
    exact ⟨(h name hname).ne_nil, (h name hname).dot, (h name hname).dots⟩

end Path

namespace FileTree

variable {tree : FileTree} {path p : Path} {name : Name} {names : List Name}

/-- A step keeps a path normal. -/
theorem Step.normal (h : tree.Step path name p) (hpath : path.Normal)
    (hname : name ≠ [] ∧ slash ∉ name ∧ 0 ∉ name) : p.Normal := by
  cases h with
  | stay => exact hpath
  | up => exact hpath.dropLast
  | down _ hdot hdots => exact hpath.concat ⟨hname.1, hname.2.1, hname.2.2, hdot, hdots⟩

/-- So does any number of steps. -/
theorem Leads.normal (h : tree.Leads path names p) (hpath : path.Normal)
    (hnames : ∀ name ∈ names, name ≠ [] ∧ slash ∉ name ∧ 0 ∉ name) : p.Normal := by
  induction h with
  | here => exact hpath
  | step hstep _ ih =>
    obtain ⟨hname, hrest⟩ := List.forall_mem_cons.mp hnames
    exact ih (hstep.normal hpath hname) hrest

/-- The names of a directory lead down to it: all that lies on the way is a directory too. -/
theorem leads_down (hp : p.Normal) (hsize : ∀ name ∈ p, name.length ≤ maxNameBytes)
    (hdirectory : tree.isDirectory p = true) :
    tree.Leads [] p p := by
  induction p using List.reverseRecOn with
  | nil => exact .here []
  | append_singleton front name ih =>
    obtain ⟨hfront, hname⟩ := List.forall_mem_append.mp hp
    obtain ⟨hsize, hlast⟩ := List.forall_mem_append.mp hsize
    have hentry := hname name (List.mem_singleton_self name)
    obtain ⟨node, hfind, -⟩ := isDirectory_iff.mp hdirectory
    have hthere : (tree.find? (front ++ [name])).isSome = true := Option.isSome_of_eq_some hfind
    have hparent : tree.isDirectory front = true := parent hthere
    rw [leads_concat_iff]
    exact ⟨front, ih hfront hsize hparent, .down hparent hentry.dot hentry.dots
      (hlast name (List.mem_singleton_self name)) hthere⟩

/-- The root lies above every node. -/
theorem root_there (h : (tree.find? p).isSome = true) : (tree.find? []).isSome = true := by
  induction p using List.reverseRecOn with
  | nil => exact h
  | append_singleton front name ih =>
    obtain ⟨node, hfind, -⟩ := isDirectory_iff.mp (parent h)
    exact ih (Option.isSome_of_eq_some hfind)

end FileTree

namespace Host

variable {host moved : Host} {path : Text} {p : Path}

/-- A change of the directory keeps it normal. -/
theorem changeDirectory_normal (h : host.changeDirectory path = .ok moved)
    (hnormal : host.directory.Normal) : moved.directory.Normal := by
  obtain ⟨p, node, hnode, -, -, rfl⟩ := changeDirectory_eq_ok h
  obtain ⟨bytes, hpath, -, hreaches, -⟩ := nodeAt_eq_ok_iff.mp hnode
  have horigin : (host.origin bytes).Normal := by
    rw [origin]
    split
    · exact List.forall_mem_nil _
    · exact hnormal
  have hzero : 0 ∉ bytes := Text.zero_not_mem_of_toSystem hpath
  refine hreaches.leads.normal horigin fun name hname => ?_
  obtain ⟨hpiece, hne⟩ := List.mem_filter.mp hname
  exact ⟨of_decide_eq_true hne, not_mem_of_mem_splitOn hpiece,
    fun hmem => hzero (subset_of_mem_splitOn hpiece hmem)⟩

/-- There is a directory at the path, and nothing keeps a shell from going there. -/
def Enterable (host : Host) (p : Path) : Prop :=
  ∃ node, host.tree.find? p = some node ∧ node.isDirectory = true ∧ node.faults.onChdir = none

/-- The written form of a directory leads there from anywhere, as long as it is there. -/
theorem changeDirectory_render (hp : p.Normal) (hshort : Path.Short p.render)
    (henter : host.Enterable p) :
    host.changeDirectory (.ofSystem p.render) = .ok { host with directory := p } := by
  obtain ⟨node, hfind, hdirectory, hfault⟩ := henter
  have hthere : host.tree.isDirectory p = true := by
    rw [FileTree.isDirectory_of_find? hfind]
    exact hdirectory
  -- A written path begins with a slash, so the current directory does not matter.
  have horigin : host.origin p.render = [] := by
    rw [origin, if_pos p.head?_render]
  have hne : p.render ≠ [] := by
    intro hnil
    have hhead := p.head?_render
    rw [hnil] at hhead
    cases hhead
  obtain ⟨hsize, hnames⟩ := hshort
  rw [hp.names_render] at hnames
  -- In normal form every name is one step down.
  have hreaches : host.Reaches p.render p := by
    constructor
    · rw [horigin]
      exact FileTree.root_there (Option.isSome_of_eq_some hfind)
    · rw [horigin, hp.names_render]
      exact FileTree.leads_down hp hnames hthere
    · exact fun _ => hthere
  have hpath := Text.toSystem_ofSystem hp.zero_not_mem_render
  have hnode : host.nodeAt (.ofSystem p.render) = .ok (p, node) :=
    nodeAt_eq_ok_iff.mpr ⟨p.render, hpath, ⟨hne, hsize⟩, hreaches, hfind⟩
  rw [changeDirectory_eq, withDirectory_eq_ok_iff]
  exact ⟨p, node, hnode, hdirectory, hfault, rfl⟩

end Host

end LineShell
