import Mathlib.Data.List.Forall2
import LineShell.Proofs.Session.Reads
import LineShell.Proofs.Text.Utf8

/-!
# Streams of bytes and streams of text

A text stream takes what each buffer decodes to by itself, and a byte stream takes the buffers as
they are.  To a shell the two are one: `Machine.retells_asText`.  What an observer sees is the same
too, up to decoding, if every buffer is the bytes of a text, because then buffers can be joined
before they are read or behind that: `Terminal.transcript_decodes`.  Main statement:
`streams_agree`.
-/

namespace LineShell

/-! ## What a text stream would have taken -/

def Chunk.asText : Chunk → Chunk
  | .bytes data => .text (Utf8.decode data)
  | .text t => .text t

def Write.asText : Write → Write
  | .data stream chunk => .data stream chunk.asText
  | .prompt reader text => .prompt reader text

def Terminal.asText (terminal : Terminal) : Terminal :=
  { kind := .text, writes := terminal.writes.map Write.asText }

def Machine.asText (m : Machine) : Machine := { m with terminal := m.terminal.asText }

/-- The streams of a terminal do not matter to a shell. -/
theorem Machine.retells_asText : Retells asText where
  withHost m host := rfl
  note m event := rfl
  print m stream data := by
    have hchunk : (Chunk.ofBytes m.terminal.kind data).asText = .ofBytes .text data := by
      cases m.terminal.kind <;> rfl
    by_cases hdata : data = []
    · simp [print, hdata]
    · simp [print, Terminal.print, hdata, asText, Terminal.asText, Write.asText, hchunk]

theorem Machine.promptFor_asText (m : Machine) (reader : Reader) (text : List Char) :
    m.asText.promptFor reader text = (m.promptFor reader text).asText := by
  simp [promptFor, Terminal.promptFor, asText, Terminal.asText, Write.asText]

/-! ## What shows -/

def Write.WellFormed : Write → Prop
  | .data _ chunk => Utf8.WellFormed chunk.toBytes
  | .prompt .. => True

instance : (write : Write) → Decidable write.WellFormed
  | .data _ chunk => inferInstanceAs (Decidable (Utf8.WellFormed chunk.toBytes))
  | .prompt .. => .isTrue trivial

/-- What shows of text is what the bytes at the same place decode to.  They are the bytes of just
this text, so no character of it stands for bytes that encode nothing. -/
structure Shown.Decodes (bytes text : Shown) : Prop where
  place : text.place = bytes.place
  chunk : text.chunk = .text (Utf8.decode bytes.chunk.toBytes)
  exact : Utf8.encode (Utf8.decode bytes.chunk.toBytes) = bytes.chunk.toBytes

theorem Chunk.toBytes_append (a b : Chunk) : (a.append b).toBytes = a.toBytes ++ b.toBytes := by
  cases a <;> cases b <;> simp [append, toBytes]

theorem Chunk.isEmpty_iff (a : Chunk) : a.isEmpty = true ↔ a.toBytes = [] := by
  cases a with
  | bytes data => exact List.isEmpty_iff
  | text t => exact List.isEmpty_iff.trans Utf8.encode_eq_nil_iff.symm

theorem Chunk.asText_eq (a : Chunk) : a.asText = .text (Utf8.decode a.toBytes) := by
  cases a with
  | bytes data => rfl
  | text t => rw [asText, toBytes, Utf8.decode_encode]

namespace Shown.Decodes

variable {bytes text : Shown}

theorem of_toBytes {place : Place} {a : Chunk} (h : Utf8.WellFormed a.toBytes) :
    Decodes { place, chunk := a } { place, chunk := .text (Utf8.decode a.toBytes) } :=
  ⟨rfl, rfl, Utf8.wellFormed_iff.mp h⟩

theorem isEmpty_eq (h : Decodes bytes text) : text.chunk.isEmpty = bytes.chunk.isEmpty := by
  rw [Bool.eq_iff_iff, Chunk.isEmpty_iff, Chunk.isEmpty_iff, h.chunk, Chunk.toBytes, h.exact]

/-- The bytes in front are those of a text, so they are read alike with and without the others. -/
theorem append (h : Decodes bytes text) {bytes' text' : Shown} (h' : Decodes bytes' text') :
    Decodes { place := bytes.place, chunk := bytes.chunk.append bytes'.chunk }
      { place := text.place, chunk := text.chunk.append text'.chunk } where
  place := h.place
  chunk := by
    have hfront := Utf8.wellFormed_iff.mpr h.exact
    rw [h.chunk, h'.chunk, Chunk.toBytes_append, hfront.decode_append, Chunk.append]
  exact := by
    have hfront := Utf8.wellFormed_iff.mpr h.exact
    rw [Chunk.toBytes_append, hfront.decode_append, Utf8.encode_append, h.exact, h'.exact]

theorem joinFront (h : Decodes bytes text) {rest rest' : List Shown}
    (hrest : List.Forall₂ Decodes rest rest') :
    List.Forall₂ Decodes (bytes.joinFront rest) (text.joinFront rest') := by
  cases hrest with
  | nil => exact .cons h .nil
  | @cons next next' rest rest' hnext hrest =>
    rw [Shown.joinFront, Shown.joinFront, h.place, hnext.place]
    by_cases hplace : bytes.place = next.place
    · rw [if_pos hplace, if_pos hplace]
      have happend := h.append hnext
      rw [h.place] at happend
      exact .cons happend hrest
    · rw [if_neg hplace, if_neg hplace]
      exact .cons h (.cons hnext hrest)

end Shown.Decodes

theorem Write.shown_decodes {write : Write} (h : write.WellFormed) :
    (write.shown .bytes).Decodes (write.asText.shown .text) := by
  cases write with
  | data stream a =>
    rw [asText, Chunk.asText_eq]
    cases stream <;> exact .of_toBytes h
  | prompt reader t =>
    have hwell : Utf8.WellFormed (Chunk.ofText .bytes t).toBytes := Utf8.wellFormed_encode t
    have htext : Chunk.text t = .text (Utf8.decode (Utf8.encode t)) := by rw [Utf8.decode_encode]
    cases reader with
    | plain => exact ⟨rfl, htext, Utf8.wellFormed_iff.mp hwell⟩
    | editor => exact ⟨rfl, htext, Utf8.wellFormed_iff.mp hwell⟩

/-- Buffers that are read one by one show what they show when they are joined first. -/
theorem Terminal.transcript_decodes {terminal : Terminal} (hkind : terminal.kind = .bytes)
    (h : ∀ write ∈ terminal.writes, write.WellFormed) :
    List.Forall₂ Shown.Decodes terminal.transcript terminal.asText.transcript := by
  rcases terminal with ⟨kind, writes⟩
  subst hkind
  induction writes with
  | nil => exact .nil
  | cons write rest ih =>
    obtain ⟨hwrite, hrest⟩ := List.forall_mem_cons.mp h
    have hshown := Write.shown_decodes hwrite
    have hjoined := ih hrest
    simp only [transcript, asText, List.map_cons, List.filter_cons, hshown.isEmpty_eq] at hjoined ⊢
    split
    · exact hshown.joinFront hjoined
    · exact hjoined

/-! ## Two runs -/

theorem Shell.kind_runLine (shell : Shell) (s : Session) (line : Text) :
    (shell.runLine s line).2.machine.terminal.kind = s.machine.terminal.kind := by
  obtain ⟨outputs, hshows⟩ := shell.exists_shows_runLine s line
  rw [hshows]

theorem Loop.kind_run (loop : Loop) (s : Session) (events : List ReadEvent) :
    (loop.run s events).machine.terminal.kind = s.machine.terminal.kind := by
  rw [run_eq_foldl]
  induction loop.reads s events generalizing s with
  | nil => rfl
  | cons r rest ih =>
    rw [List.foldl_cons, ih]
    cases r with
    | interrupted => rfl
    | ended => rfl
    | line t =>
      rw [pass, (loop.host_terminal_runLine (loop.prompted s) t).2]
      exact loop.shell.kind_runLine (loop.prompted s) t

namespace Session

/-- A session on a host, with streams that nothing has been written to. -/
def onStreams (kind : StreamKind) (host : Host) : Session :=
  { machine := { toHost := host, terminal := { kind } } }

def WritesText (s : Session) : Prop := ∀ write ∈ s.machine.terminal.writes, write.WellFormed

instance (s : Session) : Decidable s.WritesText :=
  inferInstanceAs (Decidable (∀ write ∈ s.machine.terminal.writes, write.WellFormed))

/-- The same has become of two sessions but for what their terminals were told. -/
structure SameOutside (s s' : Session) : Prop where
  host : s.machine.toHost = s'.machine.toHost
  log : s.machine.log = s'.machine.log
  status : s.status = s'.status

/-- What shows in a session on text streams is, entry by entry, what the bytes decode to that show
in a session on byte streams. -/
def ShowsAs (onBytes onText : Session) : Prop :=
  List.Forall₂ Shown.Decodes onBytes.machine.terminal.transcript onText.machine.terminal.transcript

theorem showsAs_retold {s : Session} (hkind : s.machine.terminal.kind = .bytes)
    (h : s.WritesText) : s.ShowsAs (s.retold Machine.asText) :=
  Terminal.transcript_decodes hkind h

end Session

/-- The kind of the streams makes no difference to a run of lines, nor to a session: every line has
the same reply, and in the end the host, the log and the status are the same.  If every buffer on
the byte streams is the bytes of a text, then what shows on the text streams is what these bytes
decode to, with nothing put in for bytes that encode nothing. -/
theorem streams_agree (host : Host) :
    (∀ (shell : Shell) (lines : List Text),
      let onBytes := shell.runLines (.onStreams .bytes host) lines
      let onText := shell.runLines (.onStreams .text host) lines
      onText.SameOutside onBytes ∧
        (∀ line, (shell.runLine onText line).1 = (shell.runLine onBytes line).1) ∧
        (onBytes.WritesText → onBytes.ShowsAs onText)) ∧
    ∀ (loop : Loop) (events : List ReadEvent),
      let onBytes := loop.run (.onStreams .bytes host) events
      let onText := loop.run (.onStreams .text host) events
      onText.SameOutside onBytes ∧ (onBytes.WritesText → onBytes.ShowsAs onText) := by
  constructor
  · intro shell lines onBytes onText
    -- One kind retells the other: the same run with every buffer decoded.
    have htext : onText = onBytes.retold Machine.asText :=
      Machine.retells_asText.runLines shell (.onStreams .bytes host) lines
    -- No line changes the kind of the streams.
    have hkind : onBytes.machine.terminal.kind = .bytes :=
      shell.runLines_keeps (P := fun s => s.machine.terminal.kind = .bytes)
        (fun s line hs => (shell.kind_runLine s line).trans hs) rfl lines
    rw [htext]
    refine ⟨⟨rfl, rfl, rfl⟩, fun line => ?_, Session.showsAs_retold hkind⟩
    rw [Machine.retells_asText.runLine]
    rfl
  · intro loop events onBytes onText
    have htext : onText = onBytes.retold Machine.asText :=
      Machine.retells_asText.run Machine.promptFor_asText loop (.onStreams .bytes host) events
    have hkind : onBytes.machine.terminal.kind = .bytes :=
      loop.kind_run (.onStreams .bytes host) events
    rw [htext]
    exact ⟨⟨rfl, rfl, rfl⟩, Session.showsAs_retold hkind⟩

/-- Two buffers of one line, each ended by a newline, and a complaint that is joined to none of
them. -/
theorem streams_agree_of_accents :
    let host : Host :=
      { tree := FileTree.root.putFile ["b".toBytes, "p".toBytes]
          { mode := 0o755, data := []
            program := some (.completes "é€".toBytes "😀".toBytes 3) }
        directory := [], env := [("PATH".toText, "/b".toText)] }
    let lines := ["p".toText, "ü".toText]
    let onBytes := ({} : Shell).runLines (.onStreams .bytes host) lines
    let onText := ({} : Shell).runLines (.onStreams .text host) lines
    onBytes.WritesText ∧ onBytes.ShowsAs onText ∧ onText.SameOutside onBytes ∧
      onText.status = 127 ∧ onText.machine.terminal.transcript =
        [{ place := .err, chunk := .text "😀\n".toList },
         { place := .out, chunk := .text "é€\n".toList },
         { place := .err, chunk := .text "ü: command not found\n".toList }] := by
  intro host lines onBytes onText
  have hwrites : onBytes.WritesText := by decide
  obtain ⟨hsame, -, hshows⟩ := (streams_agree host).1 {} lines
  exact ⟨hwrites, hshows hwrites, hsame, by decide, by decide⟩

end LineShell
