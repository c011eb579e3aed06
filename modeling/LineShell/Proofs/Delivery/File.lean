import LineShell.Proofs.Delivery
import LineShell.Proofs.Host.Openable

/-!
# What a delivery leaves in a file

A delivery to a file can stop in two places.  If the path cannot be opened, nothing has happened to
the host.  If the data cannot be written, the file has been opened before: a new one stays, and an
old one has lost what the mode does not keep.  Main statement: `delivered_file`, the host and the
terminal behind every delivery to a file.
-/

namespace LineShell

namespace Machine

open Host (Put Openable Unopenable)

variable {m : Machine} {r : Redirection} {p : Path} (stdout stderr : Bytes)

/-- A file that cannot be opened stays as it is. -/
theorem deliver_of_not_open {failure : Failure}
    (h : m.toHost.openForWriting r.mode r.path = .error failure) :
    (m.deliver stdout stderr (some r)).2.toHost = m.toHost ∧
      m.Comes (r.shown stdout stderr (some failure)) (m.deliver stdout stderr (some r)) := by
  obtain ⟨hhost, hcomes⟩ := m.deliver_redirected stdout stderr r
  rw [Host.writeFile_of_not_open h] at hhost hcomes
  exact ⟨hhost, hcomes⟩

/-- A file that was opened and not written is left as the opening left it. -/
theorem deliver_of_not_written {opened : Host} {failure : Failure}
    (h : m.toHost.openForWriting r.mode r.path = .ok (opened, p))
    (hwrite : opened.appendData p r.path (withNewline (r.stream.buffer stdout stderr)) =
      .error failure) :
    (m.deliver stdout stderr (some r)).2.toHost = opened ∧
      m.Comes (r.shown stdout stderr (some failure)) (m.deliver stdout stderr (some r)) := by
  obtain ⟨hhost, hcomes⟩ := m.deliver_redirected stdout stderr r
  rw [Host.writeFile_of_not_written h hwrite] at hhost hcomes
  exact ⟨hhost, hcomes⟩

section

variable (hopenable : m.toHost.Openable r.path p) (hfree : m.tree.find? p = none)

include hopenable hfree in
/-- At a free name the file is created with the data. -/
theorem deliver_to_free (hwrite : withNewline (r.stream.buffer stdout stderr) = [] ∨
      (m.toHost.newFile p []).faults.onWrite = none) :
    Put m.toHost p (m.toHost.newFile p (withNewline (r.stream.buffer stdout stderr)))
        (m.deliver stdout stderr (some r)).2.toHost ∧
      m.Comes (r.shown stdout stderr none) (m.deliver stdout stderr (some r)) := by
  obtain ⟨failed, hwriting, hcomes⟩ := m.deliver_to_file stdout stderr r
  obtain ⟨hdata, error, hfault, -, -⟩ | ⟨-, rfl, hput⟩ :=
    hwriting.of_vacant (hopenable.walk_of_free hfree)
  · rw [hfault] at hwrite
    exact absurd hwrite (by simp [hdata])
  · exact ⟨hput, hcomes⟩

include hopenable hfree in
/-- A created file that takes no data stays there empty. -/
theorem deliver_to_free_faulty {error : Errno}
    (hdata : withNewline (r.stream.buffer stdout stderr) ≠ [])
    (hfault : (m.toHost.newFile p []).faults.onWrite = some error) :
    Put m.toHost p (m.toHost.newFile p []) (m.deliver stdout stderr (some r)).2.toHost ∧
      m.Comes (r.shown stdout stderr (some (.system error r.path)))
        (m.deliver stdout stderr (some r)) := by
  obtain ⟨failed, hwriting, hcomes⟩ := m.deliver_to_file stdout stderr r
  obtain ⟨-, found, hfound, rfl, hput⟩ | ⟨hwrite, -⟩ :=
    hwriting.of_vacant (hopenable.walk_of_free hfree)
  · cases hfound.symm.trans hfault
    exact ⟨hput, hcomes⟩
  · rw [hfault] at hwrite
    exact absurd hwrite (by simp [hdata])

end

section

variable {file : RegularFile} {faults : Faults} (hopenable : m.toHost.Openable r.path p)
  (hfind : m.tree.find? p = some { content := .file file, faults })

include hopenable hfind in
/-- A file that is there keeps what the mode keeps, and the data comes behind it. -/
theorem deliver_to_there
    (hwrite : withNewline (r.stream.buffer stdout stderr) = [] ∨ faults.onWrite = none) :
    Put m.toHost p
        { content := .file { file with
            data := r.mode.keeps file.data ++ withNewline (r.stream.buffer stdout stderr) },
          faults }
        (m.deliver stdout stderr (some r)).2.toHost ∧
      m.Comes (r.shown stdout stderr none) (m.deliver stdout stderr (some r)) := by
  obtain ⟨failed, hwriting, hcomes⟩ := m.deliver_to_file stdout stderr r
  obtain ⟨hdata, error, hfault, -, -⟩ | ⟨-, rfl, hput⟩ :=
    hwriting.of_file (hopenable.walk_of_there hfind) hfind (hopenable.there _ hfind).2
  · rw [hfault] at hwrite
    exact absurd hwrite (by simp [hdata])
  · exact ⟨hput, hcomes⟩

include hopenable hfind in
/-- A file that is there and takes no data is left with what the mode keeps. -/
theorem deliver_to_faulty {error : Errno} (hdata : withNewline (r.stream.buffer stdout stderr) ≠ [])
    (hfault : faults.onWrite = some error) :
    Put m.toHost p { content := .file { file with data := r.mode.keeps file.data }, faults }
        (m.deliver stdout stderr (some r)).2.toHost ∧
      m.Comes (r.shown stdout stderr (some (.system error r.path)))
        (m.deliver stdout stderr (some r)) := by
  obtain ⟨failed, hwriting, hcomes⟩ := m.deliver_to_file stdout stderr r
  obtain ⟨-, found, hfound, rfl, hput⟩ | ⟨hwrite, -⟩ :=
    hwriting.of_file (hopenable.walk_of_there hfind) hfind (hopenable.there _ hfind).2
  · cases hfound.symm.trans hfault
    exact ⟨hput, hcomes⟩
  · rw [hfault] at hwrite
    exact absurd hwrite (by simp [hdata])

end

/-- No other file than the opened one is touched. -/
theorem deliver_elsewhere (hopenable : m.toHost.Openable r.path p) {q : Path} (hq : q ≠ p) :
    (m.deliver stdout stderr (some r)).2.tree.find? q = m.tree.find? q := by
  obtain ⟨failed, hwriting, -⟩ := m.deliver_to_file stdout stderr r
  obtain hsame | ⟨other, file, faults, hnames, hput⟩ := hwriting.eq_or_put
  · rw [hsame]
  · cases hnames.unique hopenable.names
    exact hput.elsewhere q hq

/-- What a delivery to a file leaves.  A path is opened unless something stands in its way, and then
the host stays as it was.  An opened file holds the data, a new one with the mode of new files and
an old one with its own mode and behind what is kept of its content.  Only data that is there can
meet a failing write, and then the file stays as it was opened.  No other node of the tree is
touched. -/
theorem delivered_file (m : Machine) (stdout stderr : Bytes) (r : Redirection) :
    let data := withNewline (r.stream.buffer stdout stderr)
    let after := m.deliver stdout stderr (some r)
    ((∃ p, m.toHost.Openable r.path p) ↔ ¬ m.toHost.Unopenable r.path) ∧
    (m.toHost.Unopenable r.path → after.2.toHost = m.toHost ∧
      ∃ failure, m.toHost.openForWriting r.mode r.path = .error failure ∧
        m.Comes (r.shown stdout stderr (some failure)) after) ∧
    ∀ p, m.toHost.Openable r.path p →
      (∀ q, q ≠ p → after.2.tree.find? q = m.tree.find? q) ∧
      (m.tree.find? p = none →
        let faults := (m.toHost.newFile p []).faults
        (data = [] ∨ faults.onWrite = none →
          Put m.toHost p { content := .file { mode := 0o644, data }, faults } after.2.toHost ∧
            m.Comes (r.shown stdout stderr none) after) ∧
        ∀ error, data ≠ [] → faults.onWrite = some error →
          Put m.toHost p { content := .file { mode := 0o644, data := [] }, faults } after.2.toHost ∧
            m.Comes (r.shown stdout stderr (some (.system error r.path))) after) ∧
      (∀ file faults, m.tree.find? p = some { content := .file file, faults } →
        (data = [] ∨ faults.onWrite = none →
          Put m.toHost p
              { content := .file { file with data := r.mode.keeps file.data ++ data }, faults }
              after.2.toHost ∧
            m.Comes (r.shown stdout stderr none) after) ∧
        ∀ error, data ≠ [] → faults.onWrite = some error →
          Put m.toHost p { content := .file { file with data := r.mode.keeps file.data }, faults }
              after.2.toHost ∧
            m.Comes (r.shown stdout stderr (some (.system error r.path))) after) ∧
      ∃ opened, m.toHost.openForWriting r.mode r.path = .ok (opened, p) ∧
        (m.tree.find? p = none → Put m.toHost p (m.toHost.newFile p []) opened) ∧
        ∀ failure, opened.appendData p r.path data = .error failure →
          after.2.toHost = opened ∧
            m.Comes (r.shown stdout stderr (some failure)) after := by
  refine ⟨?_, ?_, fun p hopenable => ⟨fun q hq => m.deliver_elsewhere stdout stderr hopenable hq,
    ?_, ?_, ?_⟩⟩
  · rw [Host.unopenable_iff, not_not]
  · intro hno
    obtain ⟨failure, hopen⟩ := (Host.unopenable_iff_error r.mode).mp hno
    obtain ⟨hhost, hcomes⟩ := deliver_of_not_open stdout stderr hopen
    exact ⟨hhost, failure, hopen, hcomes⟩
  · intro hfree
    exact ⟨deliver_to_free stdout stderr hopenable hfree,
      fun error => deliver_to_free_faulty stdout stderr hopenable hfree⟩
  · intro file faults hfind
    exact ⟨deliver_to_there stdout stderr hopenable hfind,
      fun error => deliver_to_faulty stdout stderr hopenable hfind⟩
  · obtain ⟨opened, hopen, hnew, -⟩ := hopenable.exists_opened r.mode
    exact ⟨opened, hopen, hnew, fun failure => deliver_of_not_written stdout stderr hopen⟩

/-- On a full disk a file is emptied before its new content is refused, and a new file stays
empty. -/
theorem delivered_file_of_full_disk :
    let log : RegularFile := { mode := 0o600, data := "old\n".toBytes }
    let faults : Faults := { onWrite := some .noSpace }
    let tree := ((FileTree.root.putFile ["log".toBytes] log).setFaults ["log".toBytes] faults).setFaults
      [] { onWriteNew := some .noSpace }
    let m : Machine := { toHost := { tree, directory := [], env := [] } }
    let r : Redirection := { stream := .stdout, mode := .truncate, path := "log".toText }
    let fresh : Redirection := { stream := .stdout, mode := .append, path := "fresh".toText }
    m.toHost.Openable r.path ["log".toBytes] ∧
      Put m.toHost ["log".toBytes] { content := .file { log with data := [] }, faults }
        (m.deliver "new".toBytes [] (some r)).2.toHost ∧
      m.toHost.Openable fresh.path ["fresh".toBytes] ∧
      Put m.toHost ["fresh".toBytes] { content := .file { mode := 0o644, data := [] }, faults }
        (m.deliver "new".toBytes [] (some fresh)).2.toHost := by
  intro log faults tree m r fresh
  have hopenable : m.toHost.Openable r.path ["log".toBytes] :=
    Host.openable_of_openForWriting r.mode rfl
  obtain ⟨-, -, hthere, -⟩ :=
    (delivered_file m "new".toBytes [] r).2.2 ["log".toBytes] hopenable
  have hdata : withNewline (r.stream.buffer "new".toBytes []) ≠ [] := by decide
  have hopenable' : m.toHost.Openable fresh.path ["fresh".toBytes] :=
    Host.openable_of_openForWriting fresh.mode rfl
  obtain ⟨hnew, -, -⟩ :=
    ((delivered_file m "new".toBytes [] fresh).2.2 ["fresh".toBytes] hopenable').2
  exact ⟨hopenable, ((hthere log faults rfl).2 .noSpace hdata rfl).1, hopenable',
    ((hnew rfl).2 .noSpace hdata rfl).1⟩

end Machine

end LineShell
