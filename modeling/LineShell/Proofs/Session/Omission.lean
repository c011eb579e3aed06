import LineShell.Proofs.Session.Past

/-!
# Lines that are left out

Nothing that a session does depends on what it has written to the terminal or noted in the log, so
two sessions that differ in these alone go on alike: `Session.SameBut.run`.  A line whose command
fails leaves no more than its prompt and its log records behind.  Main statement:
`failing_line_omitted`, such a line can be left out of the input.
-/

namespace LineShell

/-- The first list is the second one with something put in at one place. -/
def Inserted {α : Type} (more xs ys : List α) : Prop :=
  ∃ before behind, xs = before ++ more ++ behind ∧ ys = before ++ behind

theorem Inserted.append {α : Type} {more xs ys : List α} (h : Inserted more xs ys)
    (rest : List α) : Inserted more (xs ++ rest) (ys ++ rest) := by
  obtain ⟨before, behind, rfl, rfl⟩ := h
  exact ⟨before, behind ++ rest, by simp, by simp⟩

theorem inserted_at_end {α : Type} (more xs : List α) : Inserted more (xs ++ more) xs :=
  ⟨xs, [], by simp, by simp⟩

/-- Two steps have one result, and they leave related states. -/
def Matched {α σ : Type} (R : σ → σ → Prop) (x y : α × σ) : Prop :=
  ∃ a s s', x = (a, s) ∧ y = (a, s') ∧ R s s'

/-- Two machines are the same but for a write to the terminal and records in the log, which only the
first one has. -/
structure Machine.SameBut (write : Write) (records : List LogEvent) (m m' : Machine) : Prop where
  host : m.toHost = m'.toHost
  kind : m.terminal.kind = m'.terminal.kind
  writes : Inserted [write] m.terminal.writes m'.terminal.writes
  log : Inserted records m.log m'.log

structure Session.SameBut (write : Write) (records : List LogEvent) (s s' : Session) : Prop where
  machine : Machine.SameBut write records s.machine s'.machine
  status : s.status = s'.status

section

variable {write : Write} {records : List LogEvent}

/-! ## Sessions that go on alike -/

namespace Session.SameBut

variable {s s' : Session}

/-- But for their pasts the two are one session. -/
theorem fresh_eq (h : SameBut write records s s') : s.fresh = s'.fresh := by
  have hmachine := Machine.fresh_eq_iff.mpr ⟨h.machine.host, h.machine.kind⟩
  rw [Session.fresh, Session.fresh, hmachine, h.status]

theorem after (h : SameBut write records s s') (d : Session) :
    SameBut write records (d.after s.machine) (d.after s'.machine) :=
  ⟨⟨rfl, rfl, h.machine.writes.append _, h.machine.log.append _⟩, rfl⟩

theorem advance (h : SameBut write records s s') (loop : Loop) (event : Option ReadEvent) :
    Matched (SameBut write records) (loop.advance s event) (loop.advance s' event) := by
  rw [loop.advance_eq_after s, loop.advance_eq_after s', h.fresh_eq]
  exact ⟨_, _, _, rfl, rfl, h.after (loop.advance s'.fresh event).2⟩

/-- Two sessions that differ in a write and in log records differ in no more at their ends. -/
theorem run (h : SameBut write records s s') (loop : Loop) (events : List ReadEvent) :
    SameBut write records (loop.run s events) (loop.run s' events) := by
  induction events generalizing s s' with
  | nil =>
    obtain ⟨isOver, after, after', hadvance, hadvance', hafter⟩ := h.advance loop none
    rw [Loop.run, Loop.run, hadvance, hadvance']
    exact hafter
  | cons event rest ih =>
    obtain ⟨isOver, after, after', hadvance, hadvance', hafter⟩ := h.advance loop (some event)
    rw [Loop.run, Loop.run, hadvance, hadvance']
    cases isOver with
    | true => exact hafter
    | false => exact ih hafter

end Session.SameBut

end

/-! ## What a line leaves whose command fails -/

/-- What is noted of a command that fails: of a name, that it stands for nothing; of a program, that
it is about to be started, and that it did not start if the operating system said so. -/
def Command.trace (host : Host) : Command → List LogEvent
  | .builtin _ _ => []
  | .notFound name _ => [.unresolved name]
  | .external name path args =>
    .launching name path args ::
      match host.start path (name :: args) with
      | .ok _ => []
      | .error failure => if failure.isAnswer then [.launchFailed name failure] else []

def Shell.recordsOf (shell : Shell) (host : Host) (line : Text) (failure : Failure) :
    List LogEvent :=
  (shell.commandIn? host line).toList.flatMap (Command.trace host) ++ [.lineFailed line failure]

theorem Command.level_of_mem_trace {host : Host} {command : Command} {event : LogEvent}
    (h : event ∈ command.trace host) : event.level = .debug := by
  cases command with
  | builtin b args => cases h
  | notFound name args =>
    rw [List.mem_singleton.mp h]
    rfl
  | external name path args =>
    rcases List.mem_cons.mp h with rfl | hfailed
    · rfl
    · split at hfailed
      · cases hfailed
      · split at hfailed
        · rw [List.mem_singleton.mp hfailed]
          rfl
        · cases hfailed

/-- The trace of a command is below the level of a failed line, so between the two only the failure
shows. -/
theorem Shell.logAtLeast_recordsOf (shell : Shell) (host : Host) (line : Text) (failure : Failure)
    {threshold : Level} (hdebug : Level.debug.reaches threshold = false)
    (herror : Level.error.reaches threshold = true) :
    logAtLeast threshold (shell.recordsOf host line failure) = [.lineFailed line failure] := by
  have htrace : ∀ event ∈ (shell.commandIn? host line).toList.flatMap (Command.trace host),
      ¬ event.level.reaches threshold = true := by
    intro event hevent
    obtain ⟨command, -, hmem⟩ := List.mem_flatMap.mp hevent
    rw [Command.level_of_mem_trace hmem, hdebug]
    exact Bool.false_ne_true
  rw [logAtLeast, recordsOf, List.filter_append, List.filter_eq_nil_iff.mpr htrace]
  simp [LogEvent.level, herror]

theorem Machine.execute_eq_error {m after : Machine} {directories : List Text} {command : Command}
    {failure : Failure} (h : m.execute directories command = (.error failure, after)) :
    after = { m with log := m.log ++ command.trace m.toHost } := by
  cases command with
  | builtin b args =>
    rw [execute] at h
    split at h
    · cases h
    · cases h
      simp [Command.trace]
  | notFound name args =>
    obtain ⟨-, rfl⟩ := Prod.mk.inj h
    rfl
  | external name path args =>
    rw [Command.trace]
    cases hstart : m.toHost.start path (name :: args) with
    | ok started =>
      obtain ⟨done, hdone, -⟩ := execute_of_start directories hstart
      cases hdone.symm.trans h
    | error fault =>
      -- The record of the start is written before the operating system is asked.
      have hhost : (m.note (.launching name path args)).toHost = m.toHost := rfl
      rw [execute, launch, hhost, hstart] at h
      dsimp only at h ⊢
      cases hanswer : fault.isAnswer with
      | true =>
        rw [hanswer] at h
        obtain ⟨-, rfl⟩ := Prod.mk.inj h
        simp [note]
      | false =>
        rw [hanswer] at h
        obtain ⟨-, rfl⟩ := Prod.mk.inj h
        simp [note]

namespace Shell

variable {shell : Shell} {m : Machine} {line : Text} {failure : Failure}

theorem answer_eq_error (h : (shell.answer m line).1 = .error failure) :
    (shell.answer m line).2.note (.lineFailed line failure) =
      { m with log := m.log ++ shell.recordsOf m.toHost line failure } := by
  rw [answer_eq_respond] at h ⊢
  -- A line that cannot be read and one without words have a reply.
  rcases hread : Instruction.ofLine shell.modes (Text.trim line) with e | ⟨words, redirection⟩
  · obtain ⟨stderr, hreply, -⟩ := ofLineError_eq_ok e
    rw [hread, respond, hreply] at h
    cases h
  · rw [hread] at h
    have hcommand := commandIn?_of_asks hread m.toHost
    cases hwords : Command.ofWords? m.toHost (shell.searchPath.directories m.env) words with
    | none =>
      simp only [respond, carryOut, hwords] at h
      cases h
    | some command =>
      rw [respond, carryOut_of_command hwords] at h ⊢
      have hdone : (m.execute (shell.searchPath.directories m.env) command).2 =
          { m with log := m.log ++ command.trace m.toHost } :=
        Machine.execute_eq_error (Prod.ext (Host.map_eq_error h) rfl)
      dsimp only
      rw [hdone, recordsOf, hcommand, hwords]
      simp [Machine.note]

end Shell

namespace Loop

variable {loop : Loop} {s reached : Session} {event : ReadEvent} {front : List ReadEvent} {t : Text}
  {failure : Failure}

theorem advance_of_error (hread : loop.reader.read (some event) = .line t)
    (h : (loop.shell.answer (loop.prompted s).machine t).1 = .error failure) :
    ∃ after, loop.advance s (some event) = (false, after) ∧
      Session.SameBut (.prompt loop.reader loop.prompt)
        (loop.shell.recordsOf s.machine.toHost t failure) after s := by
  have hadvance : loop.advance s (some event) = loop.runLine (loop.prompted s) t := by
    simp only [advance, hread, prompted]
  have hnoted := Shell.answer_eq_error h
  rw [hadvance, runLine, Shell.runLine]
  generalize loop.shell.answer (loop.prompted s).machine t = answered at h hnoted
  obtain ⟨result, m⟩ := answered
  cases h
  refine ⟨_, rfl, ?_, rfl⟩
  have hnoted : m.note (.lineFailed t failure) = _ := hnoted
  rw [hnoted]
  exact ⟨rfl, rfl, inserted_at_end _ _, inserted_at_end _ _⟩

/-- The session in which the event behind others is read; there is none if the session is over by
then. -/
def stateBehind? (loop : Loop) (s : Session) : List ReadEvent → Option Session
  | [] => some s
  | event :: rest =>
    match loop.advance s (some event) with
    | (true, _) => none
    | (false, after) => loop.stateBehind? after rest

theorem run_append (h : loop.stateBehind? s front = some reached) (back : List ReadEvent) :
    loop.run s (front ++ back) = loop.run reached back := by
  induction front generalizing s with
  | nil =>
    cases h
    rfl
  | cons event rest ih =>
    rw [List.cons_append, run]
    rw [stateBehind?] at h
    rcases hadvance : loop.advance s (some event) with ⟨_ | _, after⟩
    · rw [hadvance] at h
      exact ih h
    · rw [hadvance] at h
      cases h

end Loop

/-- A line whose command fails leaves the host, the terminal and the status as they were.  When it
is left out of the input of a session, the session is the same to its end but for one prompt and the
records of the line.  Where the trace of the command does not show, that is one record. -/
theorem failing_line_omitted :
    (∀ (shell : Shell) (s : Session) (line : Text) (failure : Failure),
      (shell.answer s.machine line).1 = .error failure →
      (shell.runLine s line).1 = .error failure ∧
        (shell.runLine s line).2.machine.toHost = s.machine.toHost ∧
        (shell.runLine s line).2.machine.terminal = s.machine.terminal ∧
        (shell.runLine s line).2.status = s.status) ∧
    ∀ (loop : Loop) (s reached : Session) (front back : List ReadEvent) (event : ReadEvent)
      (t : Text) (failure : Failure),
      loop.stateBehind? s front = some reached → loop.reader.read (some event) = .line t →
      (loop.shell.answer (loop.prompted reached).machine t).1 = .error failure →
      Session.SameBut (.prompt loop.reader loop.prompt)
          (loop.shell.recordsOf reached.machine.toHost t failure)
          (loop.run s (front ++ event :: back)) (loop.run s (front ++ back)) ∧
        ∀ threshold : Level, Level.debug.reaches threshold = false →
          Level.error.reaches threshold = true →
          logAtLeast threshold (loop.shell.recordsOf reached.machine.toHost t failure) =
            [.lineFailed t failure] := by
  refine ⟨fun shell s line failure h => Shell.runLine_unanswered h, ?_⟩
  intro loop s reached front back event t failure hreached hread hfailure
  constructor
  · obtain ⟨after, hadvance, hsame⟩ := Loop.advance_of_error hread hfailure
    rw [Loop.run_append hreached, Loop.run_append hreached, Loop.run, hadvance]
    exact hsame.run loop back
  · intro threshold hdebug herror
    exact loop.shell.logAtLeast_recordsOf _ t failure hdebug herror

/-- A line that is left out between one that stands for no program and one that writes a file. -/
theorem failing_line_omitted_of_cd :
    let loop : Loop := { prompt := "$ ".toList, reader := .plain }
    let s : Session := { machine := { tree := .root, directory := [], env := [] } }
    let front : List ReadEvent := [.text "nothing\n".toText]
    let back : List ReadEvent := [.interrupt, .text "echo a > f\n".toText, .text []]
    let line := "cd ".toText ++ [.char nul]
    ∃ reached, loop.stateBehind? s front = some reached ∧
      loop.reader.read (some (.text (line ++ "\n".toText))) = .line line ∧
      (loop.shell.answer (loop.prompted reached).machine line).1 = .error .embeddedNul ∧
      Session.SameBut (.prompt .plain "$ ".toList) [.lineFailed line .embeddedNul]
        (loop.run s (front ++ .text (line ++ "\n".toText) :: back)) (loop.run s (front ++ back)) := by
  intro loop s front back line
  have hreached : loop.stateBehind? s front = some (loop.pass s (.line "nothing".toText)) := by rfl
  have hread : loop.reader.read (some (.text (line ++ "\n".toText))) = .line line := by rfl
  have hfailure : (loop.shell.answer
      (loop.prompted (loop.pass s (.line "nothing".toText))).machine line).1 =
        .error .embeddedNul := by rfl
  exact ⟨_, hreached, hread, hfailure,
    (failing_line_omitted.2 loop s _ front back _ line .embeddedNul hreached hread hfailure).1⟩

/-- The trace of a program shows at the lowest thresholds, so there the line has two records. -/
theorem failing_program_has_two_records :
    let m : Machine :=
      { tree := FileTree.root.putFile ["bin".toBytes, "p".toBytes]
          { mode := 0o755, data := [], program := some (.completes [] [] 0) }
        directory := [], env := [("PATH".toText, "/bin".toText)] }
    let line := "p ".toText ++ [.char nul]
    let log := fun input : List ReadEvent =>
      (({ args := ["--log-level".toText, "DEBUG".toText], input } : Invocation).run m).log
    (({} : Shell).runLine { machine := m } line).1 = .error .embeddedNul ∧
      log [.text (line ++ "\n".toText)] =
        [.launching "p".toText "/bin/p".toText [[.char nul]], .lineFailed line .embeddedNul] ∧
      log [] = [] ∧ ¬ ∃ record, Inserted [record] (log [.text (line ++ "\n".toText)]) (log []) := by
  intro m line log
  have hwith : log [.text (line ++ "\n".toText)] =
      [.launching "p".toText "/bin/p".toText [[.char nul]], .lineFailed line .embeddedNul] := by
    decide
  have hwithout : log [] = [] := by decide
  refine ⟨by decide, hwith, hwithout, ?_⟩
  rintro ⟨record, before, behind, hbefore, hbehind⟩
  rw [hwithout] at hbehind
  obtain ⟨rfl, rfl⟩ := List.append_eq_nil_iff.mp hbehind.symm
  rw [hwith] at hbefore
  cases hbefore

end LineShell
