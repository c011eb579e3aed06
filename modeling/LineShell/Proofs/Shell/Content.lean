import LineShell.Proofs.Delivery
import LineShell.Proofs.Host.Content
import LineShell.Proofs.Shell.Confinement

/-!
# What a file holds after many deliveries

Every delivery that is redirected to a file writes one piece there.  Main statement:
`content_since_last_truncation`, what deliveries to one file leave in it, whether they are made by
themselves or for the lines that a shell processes.
-/

namespace LineShell

theorem lineEnded_withNewline (data : Bytes) : LineEnded (withNewline data) := withNewline_ends data

structure Delivery where
  stdout : Bytes
  stderr : Bytes
  redirection : Option Redirection
  deriving Repr, DecidableEq

namespace Delivery

def piece? (d : Delivery) : Option Piece :=
  d.redirection.map fun r =>
    { mode := r.mode, data := withNewline (r.stream.buffer d.stdout d.stderr) }

def pieces (deliveries : List Delivery) : List Piece := deliveries.filterMap piece?

theorem pieces_cons (d : Delivery) (rest : List Delivery) :
    pieces (d :: rest) = d.piece?.toList ++ pieces rest := by
  rw [pieces, List.filterMap_cons]
  cases d.piece? <;> rfl

theorem lineEnded_of_mem_pieces {deliveries : List Delivery} {piece : Piece}
    (h : piece ∈ pieces deliveries) : LineEnded piece.data := by
  obtain ⟨d, -, hd⟩ := List.mem_filterMap.mp h
  obtain ⟨r, -, rfl⟩ := Option.map_eq_some_iff.mp hd
  exact lineEnded_withNewline _

end Delivery

def Reply.delivery (reply : Reply) : Delivery :=
  { stdout := reply.stdout, stderr := reply.stderr, redirection := reply.redirection }

namespace Machine

def deliverAll (m : Machine) (deliveries : List Delivery) : Machine :=
  deliveries.foldl (fun m d => (m.deliver d.stdout d.stderr d.redirection).2) m

variable {m : Machine} {p : Path}

/-- A delivery writes its piece to the file. -/
theorem grows_deliver (d : Delivery) (h : ∀ r ∈ d.redirection, m.toHost.Names r.path p)
    {pieces : List Piece} {after : Host}
    (hafter : Host.Grows p (m.deliver d.stdout d.stderr d.redirection).2.toHost pieces after) :
    Host.Grows p m.toHost (d.piece?.toList ++ pieces) after := by
  rcases d with ⟨stdout, stderr, _ | r⟩
  · exact .quiet rfl hafter
  · obtain ⟨failed, hwriting, -⟩ := m.deliver_to_file stdout stderr r
    exact .write (h r rfl) hwriting hafter

/-- A delivery leaves the file ready for the next one, under the same names. -/
theorem ready_deliver (d : Delivery) (h : ∀ r ∈ d.redirection, m.toHost.Names r.path p)
    (hready : m.toHost.Ready p) :
    (m.deliver d.stdout d.stderr d.redirection).2.toHost.Ready p ∧
      ∀ path, m.toHost.Names path p →
        (m.deliver d.stdout d.stderr d.redirection).2.toHost.Names path p := by
  rcases d with ⟨stdout, stderr, _ | r⟩
  · exact ⟨hready, fun path hpath => hpath⟩
  · obtain ⟨failed, hwriting, -⟩ := m.deliver_to_file stdout stderr r
    obtain ⟨-, hafter, -, -, hkept⟩ := hwriting.of_ready (h r rfl) hready
    exact ⟨hafter, hkept⟩

theorem grows_deliverAll {deliveries : List Delivery}
    (h : ∀ d ∈ deliveries, ∀ r ∈ d.redirection, m.toHost.Names r.path p)
    (hready : m.toHost.Ready p) :
    Host.Grows p m.toHost (Delivery.pieces deliveries) (m.deliverAll deliveries).toHost := by
  induction deliveries generalizing m with
  | nil => exact .done m.toHost
  | cons d rest ih =>
    obtain ⟨hd, hrest⟩ := List.forall_mem_cons.mp h
    obtain ⟨hafter, hkept⟩ := ready_deliver d hd hready
    rw [Delivery.pieces_cons]
    exact grows_deliver d hd (ih (fun d hd r hr => hkept r.path (hrest d hd r hr)) hafter)

end Machine

namespace Shell

variable {shell : Shell} {s : Session} {p : Path}

def delivery? (shell : Shell) (s : Session) (line : Text) : Option (Host × Delivery) :=
  match shell.answer s.machine line with
  | (.ok reply, m) => some (m.toHost, reply.delivery)
  | (.error _, _) => none

/-- The deliveries that are made for lines, and the hosts on which they are made. -/
def deliveries (shell : Shell) : Session → List Text → List (Host × Delivery)
  | _, [] => []
  | s, line :: rest =>
    (shell.delivery? s line).toList ++ shell.deliveries (shell.runLine s line).2 rest

theorem deliveries_append (shell : Shell) (s : Session) (front rest : List Text) :
    shell.deliveries s (front ++ rest) =
      shell.deliveries s front ++ shell.deliveries (shell.runLines s front) rest := by
  induction front generalizing s with
  | nil => rfl
  | cons line front ih =>
    rw [List.cons_append, deliveries, deliveries, ih, List.append_assoc]
    rfl

theorem grows_runLine {line : Text}
    (h : ∀ made ∈ shell.delivery? s line, ∀ r ∈ made.2.redirection, made.1.Names r.path p)
    {pieces : List Piece} {after : Host}
    (hafter : Host.Grows p (shell.runLine s line).2.machine.toHost pieces after) :
    Host.Grows p s.machine.toHost
      (Delivery.pieces ((shell.delivery? s line).toList.map Prod.snd) ++ pieces) after := by
  rw [delivery?] at h ⊢
  rcases hanswer : shell.answer s.machine line with ⟨failure | reply, m⟩ <;> rw [hanswer] at h
  · have hsame := (runLine_unanswered (congrArg Prod.fst hanswer)).2.1
    rw [hsame] at hafter
    exact hafter
  · -- The command leaves the files alone, and the delivery is made on the host that it leaves.
    have hanswered := (shell.answer_answered s.machine line).1
    rw [hanswer] at hanswered
    rw [(runLine_of_answer hanswer).1] at hafter
    refine .quiet hanswered.tree_env_eq.1 ?_
    have hmade := Machine.grows_deliver reply.delivery (h _ rfl) hafter
    rw [Option.toList_some, List.map_cons, List.map_nil, Delivery.pieces_cons]
    simpa [Delivery.pieces] using hmade

/-- A run of lines writes the pieces of its deliveries. -/
theorem grows_runLines {lines : List Text}
    (h : ∀ made ∈ shell.deliveries s lines, ∀ r ∈ made.2.redirection, made.1.Names r.path p) :
    Host.Grows p s.machine.toHost
      (Delivery.pieces ((shell.deliveries s lines).map Prod.snd))
      (shell.runLines s lines).machine.toHost := by
  induction lines generalizing s with
  | nil => exact .done s.machine.toHost
  | cons line rest ih =>
    rw [deliveries] at h ⊢
    obtain ⟨hline, hrest⟩ := List.forall_mem_append.mp h
    rw [List.map_append, Delivery.pieces, List.filterMap_append]
    exact grows_runLine (fun made hmade => hline made (Option.mem_toList.mpr hmade)) (ih hrest)

end Shell

/-- Deliveries to one file, however its name is written, leave there what they have redirected from
the last truncating one on, each buffer ended by a newline once, and before that the old content if
none truncates.  So it is after every one of them, and likewise after every line that is processed.
A file without an open line at first has none at any time, and no line in it is shared. -/
theorem content_since_last_truncation (p : Path) :
    (∀ (m : Machine) (deliveries : List Delivery), m.toHost.Ready p →
      (∀ d ∈ deliveries, ∀ r ∈ d.redirection, m.toHost.Names r.path p) →
      ∀ front, front <+: deliveries →
        Host.Collects m.toHost p (Delivery.pieces front) (m.deliverAll front).toHost) ∧
    ∀ (shell : Shell) (s : Session) (lines : List Text), s.machine.toHost.Ready p →
      (∀ made ∈ shell.deliveries s lines, ∀ r ∈ made.2.redirection, made.1.Names r.path p) →
      ∀ front, front <+: lines →
        Host.Collects s.machine.toHost p
          (Delivery.pieces ((shell.deliveries s front).map Prod.snd))
          (shell.runLines s front).machine.toHost := by
  constructor
  · intro m deliveries hready hnames front hfront
    have hgrows := Machine.grows_deliverAll (fun d hd => hnames d (hfront.subset hd)) hready
    exact hgrows.collects hready fun piece => Delivery.lineEnded_of_mem_pieces
  · rintro shell s lines hready hnames front ⟨rest, rfl⟩
    rw [Shell.deliveries_append] at hnames
    have hgrows := Shell.grows_runLines fun made hmade => hnames made (List.mem_append_left _ hmade)
    exact hgrows.collects hready fun piece => Delivery.lineEnded_of_mem_pieces

/-- The file has an open line, it is written under three names, and one buffer is empty; then a
shell that changes its directory writes to it from there. -/
theorem content_since_last_truncation_of_spellings :
    let p : Path := ["f".toBytes]
    let tree : FileTree :=
      (FileTree.root.addDirectory ["d".toBytes]).putFile p { mode := 0o600, data := [120] }
    let m : Machine := { tree, directory := [], env := [] }
    let deliveries : List Delivery :=
      [{ stdout := [97], stderr := [98], redirection := some ⟨.stderr, .append, "f".toText⟩ },
       { stdout := [], stderr := [98], redirection := some ⟨.stdout, .truncate, "./f".toText⟩ },
       { stdout := [97], stderr := [98], redirection := none },
       { stdout := [97], stderr := [], redirection := some ⟨.stdout, .append, "/d/../f".toText⟩ }]
    let lines := ["echo a >> f".toText, "cd d".toText, "nope 2>> ../f".toText]
    m.toHost.Ready p ∧ (∀ d ∈ deliveries, ∀ r ∈ d.redirection, m.toHost.Names r.path p) ∧
      (∀ made ∈ ({} : Shell).deliveries { machine := m } lines, ∀ r ∈ made.2.redirection,
        made.1.Names r.path p) ∧
      (m.deliverAll deliveries).toHost.contentAt p = [97, newlineByte] ∧
      (({} : Shell).runLines { machine := m } lines).machine.toHost.contentAt p =
        120 :: "a\nnope: command not found\n".toBytes := by
  intro p tree m deliveries lines
  have hready : m.toHost.Ready p := by decide
  have hnames : ∀ d ∈ deliveries, ∀ r ∈ d.redirection, m.toHost.Names r.path p := by decide
  have hlines : ∀ made ∈ ({} : Shell).deliveries { machine := m } lines,
      ∀ r ∈ made.2.redirection, made.1.Names r.path p := by decide
  have hlaw := content_since_last_truncation p
  refine ⟨hready, hnames, hlines, ?_, ?_⟩
  · have hcollects := hlaw.1 m deliveries hready hnames deliveries List.prefix_rfl
    exact hcollects.truncated [⟨.append, [98, newlineByte]⟩] ⟨.truncate, []⟩
      [⟨.append, [97, newlineByte]⟩] (by decide) rfl (by decide)
  · have hcollects := hlaw.2 {} { machine := m } lines hready hlines lines List.prefix_rfl
    exact (hcollects.appended (by decide)).trans (by decide)

end LineShell
