import LineShell.Proofs.Host.Lookup

/-!
# The order of a search

The value of a search path variable is cut at its colons, and no directory is lost or made up:
`SearchPath.ofVariable_append` and `SearchPath.ofVariable_joinWith`.  A name is searched for in the
directories one after another, so what is found behind a directory counts only if nothing is found
in front of it.  Main statement: `search_keeps_order`.
-/

namespace LineShell

namespace SearchPath

/-! ## Directories of a variable -/

/-- Behind a colon the directories start anew. -/
theorem ofVariable_append (p q : Text) :
    ofVariable (p ++ .char ':' :: q) = ofVariable p ++ ofVariable q := by
  rw [ofVariable, splitOn_append, List.filter_append]
  rfl

theorem mem_ofVariable {value directory : Text} (h : directory ∈ ofVariable value) :
    directory ≠ [] ∧ .char ':' ∉ directory := by
  obtain ⟨hpiece, hne⟩ := List.mem_filter.mp h
  exact ⟨of_decide_eq_true hne, not_mem_of_mem_splitOn hpiece⟩

/-- Directories that were joined by colons are read back. -/
theorem ofVariable_joinWith {directories : List Text}
    (h : ∀ directory ∈ directories, directory ≠ [] ∧ .char ':' ∉ directory) :
    ofVariable (joinWith [.char ':'] directories) = directories := by
  by_cases hne : directories = []
  · rw [hne]
    rfl
  · rw [ofVariable, splitOn_joinWith hne fun directory hd => (h directory hd).2,
      List.filter_eq_self]
    exact fun directory hd => decide_eq_true (h directory hd).1

theorem ofEnvironment_set (env : Environment) (value : Text) :
    ofEnvironment (env.set "PATH".toText value) = ofVariable value := by
  rw [ofEnvironment, Environment.getD, Environment.get?_set, if_pos rfl, Option.getD_some]

end SearchPath

/-- In the path of an entry the directory stands without the slashes at its end. -/
theorem exists_pathIn_eq (directory name : Text) :
    ∃ front n, directory = front ++ List.replicate n (.char '/') ∧
      front.getLast? ≠ some (.char '/') ∧ pathIn directory name = front ++ .char '/' :: name := by
  obtain ⟨front, n, hdirectory, hpath⟩ := entryPath_pathIn directory name
  have hfront : front = directory.rdropWhile (· == .char '/') := List.append_cancel_right hpath.symm
  refine ⟨front, n, hdirectory, ?_, hpath⟩
  intro hlast
  obtain ⟨hne, hslash⟩ := List.mem_getLast?_eq_getLast hlast
  subst hfront
  exact List.rdropWhile_last_not _ directory hne (by rw [← hslash]; rfl)

namespace Host

/-- A regular file that somebody may execute is at the path, and nothing keeps it from being looked
at. -/
def ExecutableAt (host : Host) (path : Text) : Prop :=
  ∃ bytes, path.toSystem = .ok bytes ∧ (bytes ≠ [] ∧ bytes.length ≤ maxPathBytes) ∧ ∃ p file faults,
    host.Reaches bytes p ∧ host.tree.find? p = some { content := .file file, faults } ∧
      faults.onStat = none ∧ isExecutableMode file.mode = true

variable {host : Host} {directories : List Text} {name path : Text}

theorem isExecutable_iff_executableAt :
    host.isExecutable path = true ↔ host.ExecutableAt path := by
  simp only [isExecutable_iff, nodeAt_eq_ok_iff, ExecutableAt]
  constructor
  · rintro ⟨p, file, faults, ⟨bytes, hpath, hbytes, hreaches, hfind⟩, hfault, hmode⟩
    exact ⟨bytes, hpath, hbytes, p, file, faults, hreaches, hfind, hfault, hmode⟩
  · rintro ⟨bytes, hpath, hbytes, p, file, faults, hreaches, hfind, hfault, hmode⟩
    exact ⟨p, file, faults, ⟨bytes, hpath, hbytes, hreaches, hfind⟩, hfault, hmode⟩

/-- A name with a slash is not searched for. -/
theorem findProgram_of_slash (directories : List Text) (h : .char '/' ∈ name) :
    host.findProgram directories name = if host.isExecutable name then some name else none := by
  rw [findProgram, if_neg (List.ne_nil_of_mem h), if_pos h]

/-- A name without a slash stands for the first executable file of the name on the search path. -/
theorem findProgram_of_name (directories : List Text) (hne : name ≠ []) (h : .char '/' ∉ name) :
    host.findProgram directories name =
      (directories.map (pathIn · name)).find? host.isExecutable := by
  rw [findProgram, if_neg hne, if_neg h]

/-- A search goes on in further directories where it has found nothing. -/
theorem findProgram_append (host : Host) (front back : List Text) (name : Text) :
    host.findProgram (front ++ back) name =
      (host.findProgram front name).or (host.findProgram back name) := by
  by_cases hne : name = []
  · simp [findProgram, hne]
  by_cases hslash : .char '/' ∈ name
  · rw [findProgram_of_slash _ hslash, findProgram_of_slash _ hslash,
      findProgram_of_slash _ hslash, Option.or_self]
  · rw [findProgram_of_name _ hne hslash, findProgram_of_name _ hne hslash,
      findProgram_of_name _ hne hslash, List.map_append, List.find?_append]

/-- A name is not found exactly if no directory of the search path holds it. -/
theorem findProgram_eq_none_iff (hne : name ≠ []) (h : .char '/' ∉ name) :
    host.findProgram directories name = none ↔
      ∀ directory ∈ directories, ¬ host.ExecutableAt (pathIn directory name) := by
  rw [findProgram_of_name _ hne h, List.find?_eq_none]
  simp only [List.forall_mem_map, isExecutable_iff_executableAt]

/-- What is found is the entry of the first directory that has an executable one. -/
theorem findProgram_eq_some_iff_first (hne : name ≠ []) (h : .char '/' ∉ name) :
    host.findProgram directories name = some path ↔
      ∃ front directory back, directories = front ++ directory :: back ∧
        path = pathIn directory name ∧ host.ExecutableAt path ∧
        ∀ earlier ∈ front, ¬ host.ExecutableAt (pathIn earlier name) := by
  have hnone : ∀ {front : List Text},
      (∀ candidate ∈ front.map (pathIn · name), (!host.isExecutable candidate) = true) ↔
        ∀ earlier ∈ front, ¬ host.ExecutableAt (pathIn earlier name) := by
    intro front
    simp [← isExecutable_iff_executableAt]
  rw [findProgram_of_name _ hne h, List.find?_eq_some_iff_append, isExecutable_iff_executableAt]
  constructor
  · rintro ⟨hexec, before, behind, hcandidates, hbefore⟩
    obtain ⟨front, rest, rfl, rfl, hrest⟩ := List.map_eq_append_iff.mp hcandidates
    obtain ⟨directory, back, rfl, rfl, -⟩ := List.map_eq_cons_iff.mp hrest
    exact ⟨front, directory, back, rfl, rfl, hexec, hnone.mp hbefore⟩
  · rintro ⟨front, directory, back, rfl, rfl, hexec, hfront⟩
    exact ⟨hexec, front.map (pathIn · name), back.map (pathIn · name), by simp, hnone.mpr hfront⟩

theorem findProgram_of_slash_eq_some_iff (directories : List Text) (h : .char '/' ∈ name) :
    host.findProgram directories name = some path ↔ path = name ∧ host.ExecutableAt name := by
  rw [findProgram_of_slash directories h, ← isExecutable_iff_executableAt]
  cases host.isExecutable name <;> simp [eq_comm]

end Host

/-- A search loses no entry of the search path and keeps its order.  With two values joined by a
colon, what is found under the second one counts where the first one gives nothing.  A name without
a slash stands for its path in the first directory where an executable file is, whatever slashes end
the directory, and for nothing only if there is no such directory.  A name with a slash stands for
itself whatever is searched, if it is an executable file.  Directories that are not empty and hold
no colon are read back from a value, and no other ones are ever read. -/
theorem search_keeps_order (host : Host) (name : Text) :
    (∀ (env : Environment) (p q : Text),
      let search := fun value : Text =>
        host.findProgram (SearchPath.ofEnvironment (env.set "PATH".toText value)) name
      search (p ++ .char ':' :: q) = (search p).or (search q)) ∧
    (name ≠ [] → .char '/' ∉ name → ∀ directories : List Text,
      (∀ path, host.findProgram directories name = some path ↔
        ∃ front directory back, directories = front ++ directory :: back ∧
          path = pathIn directory name ∧ host.ExecutableAt path ∧
          ∀ earlier ∈ front, ¬ host.ExecutableAt (pathIn earlier name)) ∧
      (host.findProgram directories name = none ↔
        ∀ directory ∈ directories, ¬ host.ExecutableAt (pathIn directory name))) ∧
    (∀ directory, ∃ front n, directory = front ++ List.replicate n (.char '/') ∧
      front.getLast? ≠ some (.char '/') ∧ pathIn directory name = front ++ .char '/' :: name) ∧
    (.char '/' ∈ name → ∀ directories path, host.findProgram directories name = some path ↔
      path = name ∧ host.ExecutableAt name) ∧
    (∀ directories : List Text, (∀ directory ∈ directories, directory ≠ [] ∧ .char ':' ∉ directory) →
      SearchPath.ofVariable (joinWith [.char ':'] directories) = directories) ∧
    ∀ value, ∀ directory ∈ SearchPath.ofVariable value, directory ≠ [] ∧ .char ':' ∉ directory := by
  refine ⟨?_, ?_, ?_, ?_, ?_, ?_⟩
  · intro env p q
    -- A joined value is read as the entries of the one and then those of the other.
    simp only [SearchPath.ofEnvironment_set, SearchPath.ofVariable_append]
    exact host.findProgram_append _ _ name
  · intro hne hslash directories
    exact ⟨fun path => Host.findProgram_eq_some_iff_first hne hslash,
      Host.findProgram_eq_none_iff hne hslash⟩
  · exact fun directory => exists_pathIn_eq directory name
  · intro hslash directories path
    exact Host.findProgram_of_slash_eq_some_iff directories hslash
  · intro directories h
    exact SearchPath.ofVariable_joinWith h
  · intro value directory h
    exact SearchPath.mem_ofVariable h

/-- The name is no file in the first directory, the second holds it but may not be looked at, and
the root, which is written with two slashes, is the first that has it. -/
theorem search_keeps_order_of_root :
    let program : RegularFile := { mode := 0o100, data := [] }
    let tree := ((FileTree.root.makeDirectories ["a".toBytes, "x".toBytes]).putFile
      ["b".toBytes, "x".toBytes] program).setFaults ["b".toBytes, "x".toBytes]
        { onStat := some .accessDenied }
    let host : Host :=
      { tree := tree.putFile ["x".toBytes] program, directory := [], env := [] }
    let search := fun value : Text =>
      host.findProgram (SearchPath.ofEnvironment (Environment.set [] "PATH".toText value)) "x".toText
    search "/a:/b".toText = none ∧ search "://:/a".toText = some "/x".toText ∧
      search "/a:/b:://:/a".toText = some "/x".toText := by
  intro program tree host search
  have hfirst : search "/a:/b".toText = none := by decide
  have hsecond : search "://:/a".toText = some "/x".toText := by decide
  have hjoined : search "/a:/b:://:/a".toText =
      (search "/a:/b".toText).or (search "://:/a".toText) :=
    (search_keeps_order host "x".toText).1 [] "/a:/b".toText "://:/a".toText
  refine ⟨hfirst, hsecond, ?_⟩
  rw [hjoined, hfirst, hsecond, Option.none_or]

end LineShell
