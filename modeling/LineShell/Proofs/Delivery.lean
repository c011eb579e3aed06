import LineShell.Delivery
import LineShell.Proofs.Host.Writing

/-!
# What is delivered where

Of the two buffers of a command each goes to one place: to the file of the redirection or to its own
stream of the terminal.  Main statement: `deliver_effect`, everything that a delivery does to a
machine, whatever goes wrong with the file.  A delivery breaks off if the file could not be written
and its path cannot be shown, and then neither buffer arrives: `deliver_breaks_off`.
-/

namespace LineShell

theorem Utf8.encode_eq_nil_iff {cs : List Char} : Utf8.encode cs = [] ↔ cs = [] := by
  constructor
  · intro h
    cases cs with
    | nil => rfl
    | cons c rest =>
      have hchar : String.utf8EncodeChar c = [] := (List.append_eq_nil_iff.mp h).1
      have hlength := congrArg List.length hchar
      rw [String.length_utf8EncodeChar] at hlength
      exact absurd hlength (Nat.ne_of_gt c.utf8Size_pos)
  · rintro rfl
    rfl

theorem Text.encode_eq_ok_nil_iff {t : Text} : t.encode = .ok [] ↔ t = [] := by
  rw [Text.encode_eq_ok_iff]
  constructor
  · rintro ⟨cs, rfl, h⟩
    rw [Utf8.encode_eq_nil_iff.mp h, Text.ofChars_nil]
  · rintro rfl
    exact ⟨[], rfl, rfl⟩

theorem encode_diagnostic_ne_nil {t : Text} {data : Bytes} (h : (diagnostic t).encode = .ok data) :
    data ≠ [] := by
  rintro rfl
  have hnil := Text.encode_eq_ok_nil_iff.mp h
  obtain ⟨-, hend⟩ := List.append_eq_nil_iff.mp hnil
  exact absurd hend (by decide)

theorem showable_diagnostic_iff {t : Text} : (diagnostic t).Showable ↔ t.Showable := by
  have hchars : ∀ s : String, s.toText.Showable := fun s => Text.showable_ofChars s.toList
  have hname : (Text.ofChars shellName).Showable := Text.showable_ofChars shellName
  simp only [diagnostic, Text.showable_append_iff, hchars, hname, true_and, and_true]

def Stream.other : Stream → Stream
  | .stdout => .stderr
  | .stderr => .stdout

def Stream.buffer (stdout stderr : Bytes) : Stream → Bytes
  | .stdout => stdout
  | .stderr => stderr

def Redirection.complaint (r : Redirection) (failure : Failure) : Text :=
  diagnostic (r.path ++ ": ".toText ++ failure.reason)

/-- What the terminal shows in the place of what was to go to a file. -/
def Redirection.told (r : Redirection) : Option Failure → Except Failure (List (Stream × Bytes))
  | none => .ok []
  | some failure => (r.complaint failure).encode.map fun bytes => [(.stderr, bytes)]

def Redirection.shown (r : Redirection) (stdout stderr : Bytes) (failed : Option Failure) :
    Except Failure (List (Stream × Bytes)) :=
  (r.told failed).map (· ++ [(r.stream.other, withNewline (r.stream.other.buffer stdout stderr))])

namespace Terminal

def writesOf (kind : StreamKind) (outputs : List (Stream × Bytes)) : List Write :=
  (outputs.filter fun output => output.2 ≠ []).map fun output =>
    .data output.1 (.ofBytes kind output.2)

theorem print_eq (terminal : Terminal) (stream : Stream) (data : Bytes) :
    terminal.print stream data =
      { terminal with writes := terminal.writes ++ writesOf terminal.kind [(stream, data)] } := by
  by_cases hdata : data = []
  · simp [print, writesOf, hdata]
  · simp [print, writesOf, hdata]

theorem writesOf_append (kind : StreamKind) (outputs more : List (Stream × Bytes)) :
    writesOf kind (outputs ++ more) = writesOf kind outputs ++ writesOf kind more := by
  simp [writesOf]

end Terminal

namespace Machine

open Terminal (writesOf writesOf_append)

/-- Buffers have been written to the terminal, in this order and each as a whole, and nothing else
has been written there. -/
def Shows (before : Machine) (outputs : List (Stream × Bytes)) (after : Machine) : Prop :=
  after.terminal = { before.terminal with
    writes := before.terminal.writes ++ writesOf before.terminal.kind outputs }

theorem shows_nil (m : Machine) : Shows m [] m := by simp [Shows, writesOf]

theorem shows_print (m : Machine) (stream : Stream) (data : Bytes) :
    Shows m [(stream, data)] (m.print stream data) :=
  Terminal.print_eq m.terminal stream data

/-- What is shown in two steps is shown in one behind the other. -/
theorem Shows.trans {before between after : Machine} {outputs more : List (Stream × Bytes)}
    (h : Shows before outputs between) (h' : Shows between more after) :
    Shows before (outputs ++ more) after := by
  rw [Shows, h', h, writesOf_append, List.append_assoc]

theorem Shows.of_terminal {m m' after : Machine} {outputs : List (Stream × Bytes)}
    (h : Shows m outputs after) (hm : m.terminal = m'.terminal) : Shows m' outputs after := by
  rw [Shows, ← hm]
  exact h

/-- What a step of a delivery comes to: it shows outputs, or it breaks off and shows nothing. -/
def Comes (before : Machine) (shown : Except Failure (List (Stream × Bytes)))
    (after : Option Failure × Machine) : Prop :=
  match shown with
  | .ok outputs => after.1 = none ∧ Shows before outputs after.2
  | .error fault => after.1 = some fault ∧ Shows before [] after.2

theorem Comes.fst_eq_none_iff {before : Machine} {shown : Except Failure (List (Stream × Bytes))}
    {after : Option Failure × Machine} (h : Comes before shown after) :
    after.1 = none ↔ ∃ outputs, shown = .ok outputs := by
  cases shown with
  | ok outputs => exact iff_of_true h.1 ⟨outputs, rfl⟩
  | error fault =>
    rw [h.1]
    simp

theorem Comes.exists_shows {before : Machine} {shown : Except Failure (List (Stream × Bytes))}
    {after : Option Failure × Machine} (h : Comes before shown after) :
    ∃ outputs, Shows before outputs after.2 := by
  cases shown with
  | ok outputs => exact ⟨outputs, h.2⟩
  | error fault => exact ⟨[], h.2⟩

/-- Writing to the file of a redirection shows what is told of the file. -/
theorem redirect_effect (m : Machine) (r : Redirection) (data : Bytes) :
    (m.redirect r data).2.toHost = (m.toHost.writeFile r.mode r.path data).2 ∧
      Comes m (r.told (m.toHost.writeFile r.mode r.path data).1) (m.redirect r data) := by
  unfold redirect
  split
  · next host hwrite =>
    rw [hwrite]
    exact ⟨rfl, rfl, shows_nil m⟩
  · next failure host hwrite =>
    rw [hwrite]
    show _ ∧ Comes m ((r.complaint failure).encode.map _) _
    cases hencode : (r.complaint failure).encode with
    | ok complaint =>
      rw [Redirection.complaint] at hencode
      simp only [hencode]
      exact ⟨rfl, rfl, shows_print _ .stderr complaint⟩
    | error fault =>
      rw [Redirection.complaint] at hencode
      simp only [hencode]
      exact ⟨rfl, rfl, shows_nil m⟩

/-- The other buffer is shown behind what takes the place of the first, if there is something. -/
theorem deliverApart_effect (m : Machine) (r : Redirection) (data : Bytes) (stream : Stream)
    (other : Bytes) :
    (m.deliverApart r data stream other).2.toHost =
        (m.toHost.writeFile r.mode r.path data).2 ∧
      Comes m ((r.told (m.toHost.writeFile r.mode r.path data).1).map (· ++ [(stream, other)]))
        (m.deliverApart r data stream other) := by
  obtain ⟨hhost, hcomes⟩ := m.redirect_effect r data
  rw [deliverApart]
  generalize m.redirect r data = redirected at hhost hcomes
  generalize r.told (m.toHost.writeFile r.mode r.path data).1 = shown at hcomes
  obtain ⟨broken, told⟩ := redirected
  cases shown with
  | ok outputs =>
    obtain ⟨rfl, hshows⟩ := hcomes
    exact ⟨hhost, rfl, hshows.trans (shows_print _ _ _)⟩
  | error fault =>
    obtain ⟨rfl, hshows⟩ := hcomes
    exact ⟨hhost, rfl, hshows⟩

/-- A redirected delivery is one to the file, with the other buffer behind it on its own stream. -/
theorem deliver_redirected (m : Machine) (stdout stderr : Bytes) (r : Redirection) :
    let data := withNewline (r.stream.buffer stdout stderr)
    (m.deliver stdout stderr (some r)).2.toHost = (m.toHost.writeFile r.mode r.path data).2 ∧
      Comes m (r.shown stdout stderr (m.toHost.writeFile r.mode r.path data).1)
        (m.deliver stdout stderr (some r)) := by
  have hdeliver : m.deliver stdout stderr (some r) =
      m.deliverApart r (withNewline (r.stream.buffer stdout stderr)) r.stream.other
        (withNewline (r.stream.other.buffer stdout stderr)) := by
    rcases r with ⟨_ | _, mode, path⟩ <;> rfl
  rw [hdeliver]
  exact m.deliverApart_effect r _ _ _

/-- The file goes one of the ways in which data is written, and the terminal shows what follows from
it. -/
theorem deliver_to_file (m : Machine) (stdout stderr : Bytes) (r : Redirection) :
    ∃ failed, Host.Writing m.toHost r.mode r.path (withNewline (r.stream.buffer stdout stderr))
        failed (m.deliver stdout stderr (some r)).2.toHost ∧
      Comes m (r.shown stdout stderr failed) (m.deliver stdout stderr (some r)) := by
  obtain ⟨hhost, hcomes⟩ := m.deliver_redirected stdout stderr r
  refine ⟨_, ?_, hcomes⟩
  rw [hhost]
  exact m.toHost.writeFile_writing r.mode r.path _

/-- Nothing keeps a delivery from being shown but a path that has to be told of and cannot be. -/
theorem shown_isOk_iff {host after : Host} {r : Redirection} {data : Bytes}
    {failed : Option Failure} (h : Host.Writing host r.mode r.path data failed after)
    (stdout stderr : Bytes) :
    (∃ outputs, r.shown stdout stderr failed = .ok outputs) ↔
      failed = none ∨ r.path.Showable := by
  rw [Redirection.shown, Host.isOk_map_iff]
  cases failed with
  | none => exact iff_of_true ⟨[], rfl⟩ (.inl rfl)
  | some failure =>
    have hreason := h.showable_reason
    have hcolon : ": ".toText.Showable := Text.showable_ofChars _
    rw [Redirection.told, Host.isOk_map_iff, ← Text.Showable, Redirection.complaint,
      showable_diagnostic_iff, Text.showable_append_iff, Text.showable_append_iff]
    simp [hreason, hcolon]

/-- A delivery to a file breaks off exactly if the file can neither be written nor told of. -/
theorem deliver_eq_none_iff {m : Machine} {stdout stderr : Bytes} {r : Redirection} :
    (m.deliver stdout stderr (some r)).1 = none ↔
      Host.Writable m.toHost r.path (withNewline (r.stream.buffer stdout stderr)) ∨
        r.path.Showable := by
  obtain ⟨failed, hwriting, hcomes⟩ := m.deliver_to_file stdout stderr r
  rw [hcomes.fst_eq_none_iff, shown_isOk_iff hwriting, hwriting.eq_none_iff]

/-- An empty buffer makes no write. -/
theorem deliver_stderr (m : Machine) (stderr : Bytes) :
    m.deliver [] stderr none = (none, m.print .stderr (withNewline stderr)) := rfl

/-- What a delivery does: without a redirection both buffers go to the terminal, the error buffer
first.  A redirected buffer goes to the file and not to the terminal; if the file cannot be written,
one diagnostic takes its place, and the other buffer is shown behind it in either case.  If the
diagnostic would hold a path that cannot be shown, the delivery breaks off instead and shows
nothing. -/
theorem deliver_effect (m : Machine) (stdout stderr : Bytes) (redirection : Option Redirection) :
    match redirection with
    | none =>
      (m.deliver stdout stderr none).1 = none ∧
        (m.deliver stdout stderr none).2.toHost = m.toHost ∧
        Shows m [(.stderr, withNewline stderr), (.stdout, withNewline stdout)]
          (m.deliver stdout stderr none).2
    | some r =>
      let data := withNewline (r.stream.buffer stdout stderr)
      ∃ failed,
        (failed = none ↔ Host.Writable m.toHost r.path data) ∧
        (∀ failure, r.path.toSystem = .error failure → failed = some failure) ∧
        (.char nul ∈ r.path → failed ≠ none) ∧
        (∀ failure ∈ failed, (r.complaint failure).encode ≠ .ok []) ∧
        Host.Writing m.toHost r.mode r.path data failed
          (m.deliver stdout stderr (some r)).2.toHost ∧
        ((m.deliver stdout stderr (some r)).1 = none ↔ failed = none ∨ r.path.Showable) ∧
        Comes m (r.shown stdout stderr failed) (m.deliver stdout stderr (some r)) := by
  cases redirection with
  | none =>
    exact ⟨rfl, rfl, (shows_print m .stderr (withNewline stderr)).trans (shows_print _ .stdout _)⟩
  | some r =>
    obtain ⟨failed, hwriting, hcomes⟩ := m.deliver_to_file stdout stderr r
    -- What cannot be given to the operating system is refused by the walk already.
    have hunasked : ∀ failure, r.path.toSystem = .error failure → failed = some failure :=
      fun failure hpath => (hwriting.of_toSystem hpath).1
    refine ⟨failed, hwriting.eq_none_iff, hunasked, ?_, ?_, hwriting, ?_, hcomes⟩
    · intro hnul
      obtain ⟨failure, hpath⟩ := Text.not_askable_iff.mp (Text.not_askable_of_nul hnul)
      rw [hunasked failure hpath]
      exact Option.some_ne_none failure
    · exact fun failure _ h => encode_diagnostic_ne_nil h rfl
    · rw [hcomes.fst_eq_none_iff, shown_isOk_iff hwriting]

/-- A delivery does not break off if the path of the redirection can be shown. -/
theorem deliver_of_showable (m : Machine) (stdout stderr : Bytes) {r : Redirection}
    (h : r.path.Showable) : (m.deliver stdout stderr (some r)).1 = none := by
  rw [deliver_eq_none_iff]
  exact .inr h

/-- The path of a file that cannot be written holds a byte that is no part of a character, so
nothing of the output arrives, not even the buffer that was not redirected. -/
theorem deliver_breaks_off :
    let m : Machine := { tree := .root, directory := [], env := [] }
    let r : Redirection :=
      { stream := .stdout, mode := .truncate, path := "/no/".toText ++ [.ofByte 0xFF] }
    (m.deliver "hi".toBytes "x".toBytes (some r)).1 =
        some (.unencodable { first := 0x4FF, start := 13, stop := 14 }) ∧
      (m.deliver "hi".toBytes "x".toBytes (some r)).2.terminal = m.terminal := by
  decide

/-- Nothing but the file of the redirection changes, whether the delivery breaks off or not. -/
theorem deliver_frame (m : Machine) (stdout stderr : Bytes) (redirection : Option Redirection) :
    (m.deliver stdout stderr redirection).2.directory = m.directory ∧
      (m.deliver stdout stderr redirection).2.env = m.env ∧
      (m.deliver stdout stderr redirection).2.started = m.started ∧
      ∀ p, (m.deliver stdout stderr redirection).2.tree.find? p ≠ m.tree.find? p →
        ∃ r ∈ redirection, m.toHost.Names r.path p ∧ ∃ file faults,
          (m.deliver stdout stderr redirection).2.tree.find? p =
            some { content := .file file, faults } := by
  cases redirection with
  | none => exact ⟨rfl, rfl, rfl, fun p hp => absurd rfl hp⟩
  | some r =>
    obtain ⟨failed, hwriting, -⟩ := m.deliver_to_file stdout stderr r
    rcases hwriting.eq_or_put with hsame | ⟨q, file, faults, hnames, hput⟩
    · rw [hsame]
      exact ⟨rfl, rfl, rfl, fun p hp => absurd rfl hp⟩
    · refine ⟨hput.directory, hput.env, hput.started, fun p hp => ?_⟩
      have hpq : p = q := Decidable.of_not_not fun hne => hp (hput.elsewhere p hne)
      rw [hpq]
      exact ⟨r, rfl, hnames, file, faults, hput.here⟩

end Machine

end LineShell
