import LineShell.Delivery
import LineShell.Proofs.Host.Opening

/-!
# The content of a file that is written again and again

Every piece that is written to a file either stands behind the old content or takes its place.  So
what the file holds in the end are the pieces from the last truncating one on, and the old content
only if no piece truncates.  `Grows` is a run of such writes, and `Collects` says what comes of it.
Main statement: `Grows.collects`.
-/

namespace LineShell

/-! ## Buffers that end with a line -/

/-- A buffer is empty or ends with a newline. -/
def LineEnded (data : Bytes) : Prop := data = [] ∨ data.getLast? = some newlineByte

instance (data : Bytes) : Decidable (LineEnded data) := inferInstanceAs (Decidable (_ ∨ _))

def byteLines : Bytes → List Bytes
  | [] => []
  | b :: rest =>
    if b = newlineByte then [b] :: byteLines rest
    else match byteLines rest with
      | [] => [[b]]
      | line :: lines => (b :: line) :: lines

theorem byteLines_ne_nil {data : Bytes} (h : data ≠ []) : byteLines data ≠ [] := by
  cases data with
  | nil => exact absurd rfl h
  | cons b rest =>
    rw [byteLines]
    split
    · simp
    · split <;> simp

theorem LineEnded.append {data more : Bytes} (h : LineEnded data) (hmore : LineEnded more) :
    LineEnded (data ++ more) := by
  rcases hmore with rfl | hmore
  · rw [List.append_nil]
    exact h
  · right
    rw [List.getLast?_append, hmore]
    rfl

theorem LineEnded.of_cons {b : UInt8} {rest : Bytes} (h : LineEnded (b :: rest)) :
    LineEnded rest := by
  cases rest with
  | nil => exact .inl rfl
  | cons c rest => exact .inr (h.resolve_left (List.cons_ne_nil b _))

/-- Behind a buffer that ends with a line another one begins a line of its own. -/
theorem byteLines_append {data : Bytes} (h : LineEnded data) (more : Bytes) :
    byteLines (data ++ more) = byteLines data ++ byteLines more := by
  induction data with
  | nil => rfl
  | cons b rest ih =>
    rw [List.cons_append, byteLines, byteLines, ih h.of_cons]
    by_cases hb : b = newlineByte
    · rw [if_pos hb, if_pos hb]
      rfl
    · rw [if_neg hb, if_neg hb]
      have hrest : rest ≠ [] := by
        rintro rfl
        exact hb (Option.some.inj (h.resolve_left (List.cons_ne_nil b [])))
      cases hlines : byteLines rest with
      | nil => exact absurd hlines (byteLines_ne_nil hrest)
      | cons line lines => rfl

/-! ## Pieces -/

/-- A buffer that is written to a file, and what is done with the old content there. -/
structure Piece where
  mode : OpenMode
  data : Bytes
  deriving Repr, DecidableEq

namespace Piece

/-- The content of a file behind which, or in place of which, a piece has been written. -/
def onto (old : Bytes) (piece : Piece) : Bytes := piece.mode.keeps old ++ piece.data

/-- Appended pieces follow the old content. -/
theorem foldl_onto_of_append {pieces : List Piece} (h : ∀ piece ∈ pieces, piece.mode = .append)
    (old : Bytes) : pieces.foldl onto old = old ++ pieces.flatMap Piece.data := by
  induction pieces generalizing old with
  | nil => rw [List.foldl_nil, List.flatMap_nil, List.append_nil]
  | cons piece rest ih =>
    obtain ⟨hpiece, hrest⟩ := List.forall_mem_cons.mp h
    have hkept : onto old piece = old ++ piece.data := by rw [onto, hpiece, OpenMode.keeps]
    rw [List.foldl_cons, ih hrest, hkept, List.flatMap_cons, List.append_assoc]

/-- Nothing is left of what was written before the last truncation. -/
theorem foldl_onto_of_truncate {last : Piece} {back : List Piece} (hlast : last.mode = .truncate)
    (hback : ∀ piece ∈ back, piece.mode = .append) (front : List Piece) (old : Bytes) :
    (front ++ last :: back).foldl onto old = (last :: back).flatMap Piece.data := by
  have hdropped : onto (front.foldl onto old) last = last.data := by
    rw [onto, hlast, OpenMode.keeps, List.nil_append]
  rw [List.foldl_append, List.foldl_cons, hdropped, foldl_onto_of_append hback, List.flatMap_cons]

theorem lineEnded_keeps {old : Bytes} (h : LineEnded old) (mode : OpenMode) :
    LineEnded (mode.keeps old) := by
  cases mode with
  | truncate => exact .inl rfl
  | append => exact h

/-- Of the old lines a piece keeps all or none. -/
theorem mem_byteLines_keeps {old line : Bytes} {mode : OpenMode}
    (h : line ∈ byteLines (mode.keeps old)) : line ∈ byteLines old := by
  cases mode with
  | truncate => cases h
  | append => exact h

/-- Pieces that end with a line leave a content that does, and no line of it is pieced together. -/
theorem lineEnded_foldl_onto {pieces : List Piece}
    (hpieces : ∀ piece ∈ pieces, LineEnded piece.data)
    {old : Bytes} (hold : LineEnded old) :
    LineEnded (pieces.foldl onto old) ∧ ∀ line ∈ byteLines (pieces.foldl onto old),
      line ∈ byteLines old ∨ ∃ piece ∈ pieces, line ∈ byteLines piece.data := by
  induction pieces generalizing old with
  | nil => exact ⟨hold, fun line hline => .inl hline⟩
  | cons piece rest ih =>
    obtain ⟨hpiece, hrest⟩ := List.forall_mem_cons.mp hpieces
    have hkept := lineEnded_keeps hold piece.mode
    obtain ⟨hended, hlines⟩ := ih hrest (hkept.append hpiece)
    refine ⟨hended, fun line hline => ?_⟩
    rcases hlines line hline with hline | ⟨other, hother, hline⟩
    · rw [byteLines_append hkept, List.mem_append] at hline
      rcases hline with hline | hline
      · exact .inl (mem_byteLines_keeps hline)
      · exact .inr ⟨piece, List.mem_cons_self, hline⟩
    · exact .inr ⟨other, List.mem_cons_of_mem piece hother, hline⟩

end Piece

namespace Host

def contentAt (host : Host) (p : Path) : Bytes :=
  match (host.tree.find? p).map Node.content with
  | some (.file file) => file.data
  | _ => []

/-- Nothing that stands at a path keeps a file there from being written. -/
def Ready (host : Host) (p : Path) : Prop :=
  (host.tree.find? p = none → (host.newFile p []).faults.onWrite = none) ∧
    ∀ node ∈ host.tree.find? p,
      node.isDirectory = false ∧ node.faults.onOpen = none ∧ node.faults.onWrite = none

instance (host : Host) (p : Path) : Decidable (host.Ready p) :=
  inferInstanceAs (Decidable (_ ∧ ∀ node ∈ host.tree.find? p, _))

/-- Pieces are written to the file at a path one after another, each under some name of it.  Between
them the host may change, but not its file tree. -/
inductive Grows (p : Path) : Host → List Piece → Host → Prop
  | done (host : Host) : Grows p host [] host
  | quiet {host between after : Host} {pieces : List Piece} : between.tree = host.tree →
      Grows p between pieces after → Grows p host pieces after
  | write {host between after : Host} {path : Text} {piece : Piece} {pieces : List Piece}
      {failed : Option Failure} : host.Names path p →
      Writing host piece.mode path piece.data failed between → Grows p between pieces after →
      Grows p host (piece :: pieces) after

/-- What comes of pieces that are written to the file at a path. -/
structure Collects (before : Host) (p : Path) (pieces : List Piece) (after : Host) : Prop where
  untouched : pieces = [] → after.tree.find? p = before.tree.find? p
  file : pieces ≠ [] → ∃ file faults, after.tree.find? p = some { content := .file file, faults }
  appended : (∀ piece ∈ pieces, piece.mode = .append) →
    after.contentAt p = before.contentAt p ++ pieces.flatMap Piece.data
  truncated : ∀ front last back, pieces = front ++ last :: back → last.mode = .truncate →
    (∀ piece ∈ back, piece.mode = .append) → after.contentAt p = (last :: back).flatMap Piece.data
  ended : LineEnded (before.contentAt p) → LineEnded (after.contentAt p)
  -- No line of the file has come from two pieces, nor from a piece and the old content.
  lines : LineEnded (before.contentAt p) → ∀ line ∈ byteLines (after.contentAt p),
    line ∈ byteLines (before.contentAt p) ∨ ∃ piece ∈ pieces, line ∈ byteLines piece.data

variable {host between after : Host} {p : Path} {node : Node}

theorem contentAt_of_find? {file : RegularFile} {faults : Faults}
    (h : host.tree.find? p = some { content := .file file, faults }) :
    host.contentAt p = file.data := by
  rw [contentAt, h]
  rfl

theorem contentAt_of_free (h : host.tree.find? p = none) : host.contentAt p = [] := by
  rw [contentAt, h]
  rfl

theorem Ready.isDirectory_eq_false (h : host.Ready p) : host.tree.isDirectory p = false := by
  cases hfind : host.tree.find? p with
  | none => exact FileTree.isDirectory_of_free hfind
  | some node =>
    rw [FileTree.isDirectory_of_find? hfind]
    exact (h.2 node hfind).1

/-- A file that was put at a path can be written there again. -/
theorem Put.ready (h : Put host p node after) (hnode : node.isDirectory = false ∧
    node.faults.onOpen = none ∧ node.faults.onWrite = none) : after.Ready p := by
  refine ⟨fun hfree => ?_, fun found hfound => ?_⟩
  · cases h.here.symm.trans hfree
  · cases h.here.symm.trans hfound
    exact hnode

/-- A file that is ready is written without fail, and stays ready and under its names. -/
theorem Writing.of_ready {mode : OpenMode} {path : Text} {data : Bytes} {failed : Option Failure}
    (h : Writing host mode path data failed after) (hnames : host.Names path p)
    (hready : host.Ready p) : failed = none ∧ after.Ready p ∧
      (∃ file faults, after.tree.find? p = some { content := .file file, faults }) ∧
      after.contentAt p = mode.keeps (host.contentAt p) ++ data ∧
      ∀ other, host.Names other p → after.Names other p := by
  have hfile := hready.isDirectory_eq_false
  -- The name leads to the file, or it is free and the file is new.
  rcases hnames with hwalk | hwalk
  · cases hfind : host.tree.find? p with
    | none =>
      have hthere := isSome_find?_of_walk hwalk hfile
      rw [hfind] at hthere
      cases hthere
    | some node =>
      obtain ⟨content, faults⟩ := node
      obtain ⟨hnode, hopen, hwrite⟩ := hready.2 _ hfind
      cases content with
      | directory => cases hnode
      | file file =>
        obtain ⟨-, error, hfault, -⟩ | ⟨-, rfl, hput⟩ := h.of_file hwalk hfind hopen
        · cases hfault.symm.trans hwrite
        refine ⟨rfl, hput.ready ⟨rfl, hopen, hwrite⟩, ⟨_, _, hput.here⟩, ?_,
          fun other hother => hother.put hfile hput⟩
        rw [contentAt_of_find? hput.here, contentAt_of_find? hfind]
  · obtain ⟨bytes, -, hfree⟩ := free_of_walk_eq_vacant hwalk
    obtain ⟨-, error, hfault, -⟩ | ⟨-, rfl, hput⟩ := h.of_vacant hwalk
    · cases hfault.symm.trans (hready.1 hfree.free)
    refine ⟨rfl, hput.ready ⟨rfl, rfl, hready.1 hfree.free⟩, ⟨_, _, hput.here⟩, ?_,
      fun other hother => hother.put hfile hput⟩
    rw [contentAt_of_find? hput.here, contentAt_of_free hfree.free]
    cases mode <;> rfl

/-- The content is what the pieces make of the old one, step by step. -/
theorem Grows.contentAt_eq {pieces : List Piece} (h : Grows p host pieces after)
    (hready : host.Ready p) :
    after.contentAt p = pieces.foldl Piece.onto (host.contentAt p) ∧
      (pieces = [] → after.tree.find? p = host.tree.find? p) ∧
      (pieces ≠ [] →
        ∃ file faults, after.tree.find? p = some { content := .file file, faults }) := by
  induction h with
  | done host => exact ⟨rfl, fun _ => rfl, fun hne => absurd rfl hne⟩
  | quiet htree _ ih =>
    rw [Ready, newFile, ← htree] at hready
    rw [contentAt, contentAt, ← htree]
    exact ih hready
  | @write host between after path piece pieces failed hnames hwriting _ ih =>
    obtain ⟨-, hbetween, hthere, hcontent, -⟩ := hwriting.of_ready hnames hready
    obtain ⟨hafter, huntouched, hfile⟩ := ih hbetween
    refine ⟨?_, fun hnil => absurd hnil (List.cons_ne_nil piece pieces), fun _ => ?_⟩
    · rw [hafter, hcontent, List.foldl_cons]
      rfl
    · -- The last write may be this one: then nothing behind it has touched the file.
      by_cases hpieces : pieces = []
      · rw [huntouched hpieces]
        exact hthere
      · exact hfile hpieces

/-- A file that pieces are written to holds those from the last truncating one on. -/
theorem Grows.collects {pieces : List Piece} (h : Grows p host pieces after) (hready : host.Ready p)
    (hpieces : ∀ piece ∈ pieces, LineEnded piece.data) : Collects host p pieces after := by
  obtain ⟨hcontent, huntouched, hfile⟩ := h.contentAt_eq hready
  exact
    { untouched := huntouched
      file := hfile
      appended := by
        intro hmodes
        rw [hcontent, Piece.foldl_onto_of_append hmodes]
      truncated := by
        rintro front last back rfl hlast hback
        rw [hcontent, Piece.foldl_onto_of_truncate hlast hback]
      ended := by
        intro hold
        rw [hcontent]
        exact (Piece.lineEnded_foldl_onto hpieces hold).1
      lines := by
        intro hold
        rw [hcontent]
        exact (Piece.lineEnded_foldl_onto hpieces hold).2 }

end Host

end LineShell
