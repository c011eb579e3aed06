import LineShell.Host.FileTree

/-!
# What can be put into a file tree

A node can take the place of one that is there if neither or both are directories, and a node can be
put at a free name in a directory.  So what writing to files puts into a tree is always put there.
-/

namespace LineShell

namespace FileTree

variable {tree : FileTree} {p : Path} {node : Node}

theorem isDirectory_iff : tree.isDirectory p = true ↔
    ∃ node, tree.find? p = some node ∧ node.isDirectory = true := by
  show (tree.find? p).any Node.isDirectory = true ↔ _
  rw [Option.any_eq_true]

theorem isDirectory_of_find? (h : tree.find? p = some node) :
    tree.isDirectory p = node.isDirectory := by
  show (tree.find? p).any Node.isDirectory = _
  rw [h, Option.any_some]

theorem isDirectory_of_free (h : tree.find? p = none) : tree.isDirectory p = false := by
  show (tree.find? p).any Node.isDirectory = _
  rw [h, Option.any_none]

theorem isDirectory_congr {other : FileTree} (h : tree.find? p = other.find? p) :
    tree.isDirectory p = other.isDirectory p := congrArg (·.any Node.isDirectory) h

theorem admits_iff : tree.admits p node = true ↔ (∀ name ∈ p, slash ∉ name) ∧
    (p = [] ∨ tree.isDirectory p.dropLast = true) ∧
    (node.isDirectory = true ∨ tree.children p = []) := by
  simp [admits, and_assoc]

/-- A node of the same kind can be put in the place of one that is there. -/
theorem admits_of_find? {other : Node} (h : tree.find? p = some other)
    (hkind : node.isDirectory = other.isDirectory) : tree.admits p node = true := by
  have hthere : (tree.find? p).isSome = true := by
    rw [h]
    rfl
  refine admits_iff.mpr ⟨written hthere, ?_, ?_⟩
  · by_cases hp : p = []
    · exact .inl hp
    · rw [← List.dropLast_concat_getLast hp] at hthere
      exact .inr (parent hthere)
  · cases hdirectory : node.isDirectory with
    | true => exact .inl rfl
    | false =>
      refine .inr (children_eq_nil ?_)
      rw [isDirectory_of_find? h, ← hkind, hdirectory]

/-- Anything can be put at a free name in a directory. -/
theorem admits_of_free {q : Path} {name : Name} (hfree : tree.find? (q ++ [name]) = none)
    (hdirectory : tree.isDirectory q = true) (hname : slash ∉ name) :
    tree.admits (q ++ [name]) node = true := by
  obtain ⟨above, habove, -⟩ := isDirectory_iff.mp hdirectory
  have hthere : (tree.find? q).isSome = true := by
    rw [habove]
    rfl
  refine admits_iff.mpr ⟨?_, ?_, .inr (children_eq_nil (isDirectory_of_free hfree))⟩
  · intro other hother
    rcases List.mem_append.mp hother with hother | hother
    · exact written hthere other hother
    · rw [List.mem_singleton.mp hother]
      exact hname
  · rw [List.dropLast_concat]
    exact .inr hdirectory

end FileTree

end LineShell
