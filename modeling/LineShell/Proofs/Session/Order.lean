import LineShell.CommandLine.Startup
import LineShell.Proofs.Shell.Confinement

/-!
# The order of a session

A session passes over what it reads, one reading after another, up to the first line that stops it:
`Loop.run_of_exit` and `Loop.run_of_no_exit`.  A line stops it if the first word is `exit` and
nothing fails.  What stands behind that line in the input makes no difference, and the status is the
exit code of the last line that has not failed.  Main statement: `session_in_order`.
-/

namespace LineShell

def Reader.readings (reader : Reader) (events : List ReadEvent) : List Reading :=
  (events.map fun event => reader.read (some event)).takeWhile (· ≠ .ended)

namespace Reader

variable (reader : Reader) (rest : List ReadEvent) {event : ReadEvent}

theorem readings_cons_of_ended (h : reader.read (some event) = .ended) :
    reader.readings (event :: rest) = [] := by
  simp [readings, h]

theorem readings_cons_of_ne (h : reader.read (some event) ≠ .ended) :
    reader.readings (event :: rest) = reader.read (some event) :: reader.readings rest := by
  simp [readings, h]

end Reader

namespace Shell

/-- The line can be read, and its first word is `exit`. -/
def EndsAt (shell : Shell) (line : Text) : Prop :=
  ∃ args redirection, shell.Asks line (Builtin.exit.name :: args) redirection

variable {shell : Shell} {host after : Host} {line : Text} {reply : Reply}

theorem Answered.endsSession_iff (h : Answered shell host line (.ok reply) after) :
    reply.endsSession = true ↔ shell.EndsAt line := by
  cases h with
  | unreadable hread =>
    refine iff_of_false Bool.false_ne_true ?_
    rintro ⟨args, redirection, hasks⟩
    cases hread.symm.trans hasks
  | idle hasks =>
    refine iff_of_false Bool.false_ne_true ?_
    rintro ⟨args, redirection, hasks'⟩
    cases (hasks.unique hasks').1
  | @carriedOut words redirection command outcome after hasks hcommand =>
    show command.isExit = true ↔ _
    constructor
    · intro hexit
      unfold Command.isExit at hexit
      split at hexit
      · rw [Command.ofWords?_eq_builtin hcommand] at hasks
        exact ⟨_, _, hasks⟩
      · cases hexit
    · rintro ⟨args, redirection', hasks'⟩
      -- The word `exit` is a builtin under every search path.
      rw [(hasks.unique hasks').1, Command.ofWords?_builtin] at hcommand
      cases hcommand
      rfl

/-- `exit` always has a reply. -/
theorem Answered.not_endsAt {failure : Failure}
    (h : Answered shell host line (.error failure) after) : ¬ shell.EndsAt line := by
  rintro ⟨args, redirection, hasks'⟩
  cases h with
  | failed hasks hcommand hexecution =>
    rw [(hasks.unique hasks').1, Command.ofWords?_builtin] at hcommand
    cases hcommand
    cases hexecution with
    | told _ hperform => cases hperform

end Shell

namespace Loop

def prompted (loop : Loop) (s : Session) : Session :=
  { s with machine := s.machine.promptFor loop.reader loop.prompt }

/-- The first word of the line is `exit`, and nothing fails when it is processed in the session. -/
def StopsAt (loop : Loop) (s : Session) (line : Text) : Prop :=
  loop.shell.EndsAt line ∧
    ∃ reply, (loop.shell.runLine (loop.prompted s) line).1 = .ok reply

/-- What one reading does to a session: there is a prompt, and a line is processed behind it. -/
def pass (loop : Loop) (s : Session) : Reading → Session
  | .line t => (loop.runLine (loop.prompted s) t).2
  | .interrupted | .ended => loop.prompted s

def reply? (loop : Loop) (s : Session) : Reading → Option Reply
  | .line t => (loop.shell.runLine (loop.prompted s) t).1.toOption
  | .interrupted | .ended => none

/-- The replies to readings, each in the session that the readings before it leave. -/
def replies (loop : Loop) : Session → List Reading → List Reply
  | _, [] => []
  | s, r :: rest => (loop.reply? s r).toList ++ loop.replies (loop.pass s r) rest

/-- The exit code of the last reply to readings, or the status from before if there is none. -/
def recorded (loop : Loop) (s : Session) (rs : List Reading) : Int :=
  ((loop.replies s rs).getLast?.map Reply.exitCode).getD s.status

/-- None of the readings stops the session, each in the session that the readings before it
leave. -/
def Quiet (loop : Loop) (s : Session) (rs : List Reading) : Prop :=
  ∀ front t back, rs = front ++ Reading.line t :: back → ¬ loop.StopsAt (front.foldl loop.pass s) t

variable {loop : Loop} {s : Session} {event : ReadEvent} {t : Text}

theorem Quiet.head {r : Reading} {rest : List Reading} (h : loop.Quiet s (r :: rest)) :
    ∀ t, r = .line t → ¬ loop.StopsAt s t := by
  rintro t rfl
  exact h [] t rest rfl

theorem quiet_of_not_endsAt {rs : List Reading}
    (h : ∀ t, Reading.line t ∈ rs → ¬ loop.shell.EndsAt t) : loop.Quiet s rs := by
  intro front t back hrs hstops
  exact h t (by simp [hrs]) hstops.1

theorem Quiet.tail {r : Reading} {rest : List Reading} (h : loop.Quiet s (r :: rest)) :
    loop.Quiet (loop.pass s r) rest := by
  rintro front t back rfl
  exact h (r :: front) t back rfl

/-! ## One reading -/

theorem runLine_fst_iff (loop : Loop) (s : Session) (t : Text) :
    (loop.runLine s t).1 = true ↔
      loop.shell.EndsAt t ∧ ∃ reply, (loop.shell.runLine s t).1 = .ok reply := by
  rw [runLine]
  rcases hline : loop.shell.runLine s t with ⟨failure | reply, after⟩
  · simp
  · obtain ⟨m, hanswered, -⟩ := Shell.runLine_ok hline
    simpa using hanswered.endsSession_iff

theorem status_pass (loop : Loop) (s : Session) (r : Reading) :
    (loop.pass s r).status = ((loop.reply? s r).map Reply.exitCode).getD s.status := by
  cases r with
  | line t =>
    simp only [pass, reply?, Loop.runLine]
    rcases hline : loop.shell.runLine (loop.prompted s) t with ⟨failure | reply, after⟩
    · have hstatus : after.status = (loop.prompted s).status := Shell.status_of_runLine_error hline
      exact hstatus
    · exact (Shell.answer_of_runLine hline).2
  | interrupted => rfl
  | ended => rfl

theorem host_terminal_runLine (loop : Loop) (s : Session) (t : Text) :
    (loop.runLine s t).2.machine.toHost = (loop.shell.runLine s t).2.machine.toHost ∧
      (loop.runLine s t).2.machine.terminal = (loop.shell.runLine s t).2.machine.terminal := by
  rw [runLine]
  split
  · next hline => rw [hline]; exact ⟨rfl, rfl⟩
  · next hline => rw [hline]; exact ⟨rfl, rfl⟩

/-- A line that fails keeps the status.  If it fails in its command, the host and what the terminal
shows are left as well. -/
theorem pass_of_error {failure : Failure}
    (h : (loop.shell.runLine (loop.prompted s) t).1 = .error failure) :
    (loop.pass s (.line t)).status = s.status ∧
      ((loop.shell.answer (loop.prompted s).machine t).1 = .error failure →
        (loop.pass s (.line t)).machine.toHost = s.machine.toHost ∧
        (loop.pass s (.line t)).machine.terminal = (loop.prompted s).machine.terminal) := by
  constructor
  · rw [status_pass, reply?, h]
    rfl
  · intro hanswer
    obtain ⟨-, hhost, hterminal, -⟩ := Shell.runLine_unanswered hanswer
    obtain ⟨hpass, hpass'⟩ := loop.host_terminal_runLine (loop.prompted s) t
    exact ⟨hpass.trans hhost, hpass'.trans hterminal⟩

theorem status_foldl_pass (loop : Loop) (s : Session) (rs : List Reading) :
    (rs.foldl loop.pass s).status = loop.recorded s rs := by
  induction rs generalizing s with
  | nil => rfl
  | cons r rest ih =>
    rw [List.foldl_cons, ih, recorded, recorded, replies, List.getLast?_append, status_pass]
    cases (loop.replies (loop.pass s r) rest).getLast? with
    | none => cases loop.reply? s r <;> rfl
    | some reply => rfl

/-! ## One event -/

theorem run_nil (loop : Loop) (s : Session) : loop.run s [] = loop.prompted s := rfl

theorem run_cons_of_ended (rest : List ReadEvent) (h : loop.reader.read (some event) = .ended) :
    loop.run s (event :: rest) = loop.prompted s := by
  simp only [run, advance, h, prompted]

theorem run_cons_of_interrupted (rest : List ReadEvent)
    (h : loop.reader.read (some event) = .interrupted) :
    loop.run s (event :: rest) = loop.run (loop.prompted s) rest := by
  simp only [run, advance, h, prompted]

theorem run_cons_of_exit (rest : List ReadEvent) (h : loop.reader.read (some event) = .line t)
    (hstops : loop.StopsAt s t) : loop.run s (event :: rest) = loop.pass s (.line t) := by
  have hadvance : loop.advance s (some event) = (true, loop.pass s (.line t)) := by
    rw [← (runLine_fst_iff loop (loop.prompted s) t).mpr hstops]
    simp only [advance, h, pass, prompted]
  rw [run, hadvance]

theorem run_cons_of_line (rest : List ReadEvent) (h : loop.reader.read (some event) = .line t)
    (hstops : ¬ loop.StopsAt s t) :
    loop.run s (event :: rest) = loop.run (loop.pass s (.line t)) rest := by
  have hadvance : loop.advance s (some event) = (false, loop.pass s (.line t)) := by
    rw [StopsAt, ← runLine_fst_iff, Bool.not_eq_true] at hstops
    rw [← hstops]
    simp only [advance, h, pass, prompted]
  rw [run, hadvance]

/-! ## All events -/

/-- Up to and including the line that stops it a session passes over every reading once and in
order. -/
theorem run_of_exit {events : List ReadEvent} {front back : List Reading}
    (hread : loop.reader.readings events = front ++ Reading.line t :: back)
    (hfront : loop.Quiet s front) (hstops : loop.StopsAt (front.foldl loop.pass s) t) :
    loop.run s events = (front ++ [Reading.line t]).foldl loop.pass s := by
  -- Induction on the events; an interrupted read and a line each take one reading.
  induction events generalizing s front with
  | nil =>
    cases front <;> cases hread
  | cons event rest ih =>
    cases hevent : loop.reader.read (some event) with
    | ended =>
      rw [Reader.readings_cons_of_ended _ _ hevent] at hread
      cases front <;> cases hread
    | interrupted =>
      rw [Reader.readings_cons_of_ne _ _ (by simp [hevent]), hevent] at hread
      rw [run_cons_of_interrupted rest hevent]
      cases front with
      | nil => cases hread
      | cons r front =>
        obtain ⟨rfl, hrest⟩ := List.cons.inj hread
        exact ih hrest hfront.tail hstops
    | line u =>
      rw [Reader.readings_cons_of_ne _ _ (by simp [hevent]), hevent] at hread
      cases front with
      | nil =>
        cases hread
        -- This is the line that stops it, and the rest of the events is not read.
        exact run_cons_of_exit rest hevent hstops
      | cons r front =>
        obtain ⟨rfl, hrest⟩ := List.cons.inj hread
        rw [run_cons_of_line rest hevent (hfront.head u rfl)]
        exact ih hrest hfront.tail hstops

/-- Where no line stops it a session passes over every reading, and a last prompt meets the end. -/
theorem run_of_no_exit {events : List ReadEvent}
    (hread : loop.Quiet s (loop.reader.readings events)) :
    loop.run s events = loop.prompted ((loop.reader.readings events).foldl loop.pass s) := by
  induction events generalizing s with
  | nil => rfl
  | cons event rest ih =>
    cases hevent : loop.reader.read (some event) with
    | ended =>
      rw [run_cons_of_ended rest hevent, Reader.readings_cons_of_ended _ _ hevent]
      rfl
    | interrupted =>
      rw [Reader.readings_cons_of_ne _ _ (by simp [hevent]), hevent] at hread ⊢
      rw [run_cons_of_interrupted rest hevent]
      exact ih hread.tail
    | line u =>
      rw [Reader.readings_cons_of_ne _ _ (by simp [hevent]), hevent] at hread ⊢
      rw [run_cons_of_line rest hevent (hread.head u rfl)]
      exact ih hread.tail

/-- If the line does not stop the session at its place, the session has ended in front of it. -/
theorem run_append_congr_of_exit (front : List ReadEvent) (back back' : List ReadEvent)
    (hevent : loop.reader.read (some event) = .line t)
    (hstops : loop.StopsAt ((loop.reader.readings front).foldl loop.pass s) t) :
    loop.run s (front ++ event :: back) = loop.run s (front ++ event :: back') := by
  induction front generalizing s with
  | nil =>
    exact (run_cons_of_exit back hevent hstops).trans (run_cons_of_exit back' hevent hstops).symm
  | cons first rest ih =>
    rw [List.cons_append, List.cons_append]
    cases hfirst : loop.reader.read (some first) with
    | ended => rw [run_cons_of_ended _ hfirst, run_cons_of_ended _ hfirst]
    | interrupted =>
      rw [Reader.readings_cons_of_ne _ _ (by simp [hfirst]), hfirst] at hstops
      rw [run_cons_of_interrupted _ hfirst, run_cons_of_interrupted _ hfirst]
      exact ih hstops
    | line u =>
      rw [Reader.readings_cons_of_ne _ _ (by simp [hfirst]), hfirst] at hstops
      by_cases hu : loop.StopsAt s u
      · rw [run_cons_of_exit _ hfirst hu, run_cons_of_exit _ hfirst hu]
      · rw [run_cons_of_line _ hfirst hu, run_cons_of_line _ hfirst hu]
        exact ih hstops

/-- What reading events in order makes of a session. -/
structure InOrder (loop : Loop) (s : Session) (events : List ReadEvent) (after : Session) :
    Prop where
  exit : ∀ front t back, loop.reader.readings events = front ++ Reading.line t :: back →
    loop.Quiet s front → loop.StopsAt (front.foldl loop.pass s) t →
    after = (front ++ [Reading.line t]).foldl loop.pass s ∧
      after.status = loop.recorded s (front ++ [Reading.line t])
  noExit : loop.Quiet s (loop.reader.readings events) →
    after = loop.prompted ((loop.reader.readings events).foldl loop.pass s) ∧
      after.status = loop.recorded s (loop.reader.readings events)
  -- Nothing behind the line that stops a session is read.
  unread : ∀ front event t back back', events = front ++ event :: back →
    loop.reader.read (some event) = .line t →
    loop.StopsAt ((loop.reader.readings front).foldl loop.pass s) t →
    loop.run s (front ++ event :: back') = after

theorem run_inOrder (loop : Loop) (s : Session) (events : List ReadEvent) :
    loop.InOrder s events (loop.run s events) where
  exit front t back hread hfront hstops := by
    rw [run_of_exit hread hfront hstops]
    exact ⟨rfl, loop.status_foldl_pass s _⟩
  noExit hread := by
    rw [run_of_no_exit hread]
    exact ⟨rfl, loop.status_foldl_pass s _⟩
  unread front event t back back' hevents hevent hstops := by
    rw [hevents]
    exact run_append_congr_of_exit front back' back hevent hstops

/-- A line of `exit` stops a session unless it breaks off over a file whose path cannot be shown. -/
theorem stopsAt_of_endsAt (hends : loop.shell.EndsAt t)
    (hshown : ∀ words r, loop.shell.Asks t words (some r) → r.path.Showable) :
    loop.StopsAt s t := by
  refine ⟨hends, ?_⟩
  cases hanswer : (loop.shell.answer (loop.prompted s).machine t).1 with
  | error failure =>
    have hanswered := (loop.shell.answer_answered (loop.prompted s).machine t).1
    rw [hanswer] at hanswered
    exact absurd hends hanswered.not_endsAt
  | ok reply => exact ⟨reply, (Shell.runLine_of_showable hanswer hshown).1⟩

end Loop

/-! ## Sessions that a run holds -/

namespace Invocation

variable {inv : Invocation} {m after : Machine} {loop : Loop} {sinks : List Sink}
  {history : Option History}

theorem planUnder_eq_session {o : Options} {settings : Settings}
    (h : inv.planUnder o settings m = .session loop after sinks history) :
    after = m ∧ loop = settings.loop inv.atTerminal ∧
      settings.history m.env inv.atTerminal = .ok history := by
  unfold planUnder at h
  dsimp only at h
  split at h
  · cases h
  · split at h
    · cases h
    · split at h
      · cases h
      · next found hhistory =>
        cases h
        exact ⟨rfl, rfl, hhistory⟩

/-- A run that holds a session ends as a session under its settings does. -/
theorem run_of_session (h : inv.plan m = .session loop after sinks history) :
    ∃ (settings : Settings) (s : Session),
      settings.session after inv.atTerminal inv.input = .ok s ∧
        inv.run m = { ending := .exit s.status, machine := s.machine, sinks, history } := by
  have hrun : inv.run m =
      { ending := .exit (loop.run { machine := after } inv.input).status
        machine := (loop.run { machine := after } inv.input).machine, sinks, history } := by
    rw [run, h]
  unfold plan at h
  split at h
  · cases h
  · next o _ =>
    split at h
    · cases h
    · dsimp only at h
      split at h
      · cases h
      · next settings _ =>
        obtain ⟨rfl, rfl, hhistory⟩ := planUnder_eq_session h
        refine ⟨settings, _, ?_, hrun⟩
        rw [Settings.session, hhistory]
        rfl

end Invocation

/-- A session processes every line once and in order up to the first line that stops it, and its
status is the exit code of the last line that has not failed; an interrupt is a prompt and nothing
else, and so is a line whose command fails but for the log.  A line of `exit` stops the session
unless it fails over a file whose path cannot be shown.  Only a line editor whose history has no
place holds no session. -/
theorem session_in_order :
    (∀ (loop : Loop) (s : Session),
      loop.pass s .interrupted = loop.prompted s ∧
      (∀ t failure, (loop.shell.runLine (loop.prompted s) t).1 = .error failure →
        (loop.pass s (.line t)).status = s.status ∧
          ((loop.shell.answer (loop.prompted s).machine t).1 = .error failure →
            (loop.pass s (.line t)).machine.toHost = s.machine.toHost ∧
            (loop.pass s (.line t)).machine.terminal = (loop.prompted s).machine.terminal)) ∧
      (∀ t, loop.shell.EndsAt t →
        (∀ words r, loop.shell.Asks t words (some r) → r.path.Showable) → loop.StopsAt s t) ∧
      ∀ events, loop.InOrder s events (loop.run s events)) ∧
    ∀ (settings : Settings) (m : Machine) (atTerminal : Bool) (events : List ReadEvent),
      match settings.history m.env atTerminal with
      | .ok _ => settings.session m atTerminal events =
          .ok ((settings.loop atTerminal).run { machine := m } events)
      | .error e => settings.session m atTerminal events = .error e := by
  refine ⟨fun loop s => ⟨rfl, fun t failure h => Loop.pass_of_error h,
    fun t => Loop.stopsAt_of_endsAt, loop.run_inOrder s⟩, ?_⟩
  intro settings m atTerminal events
  rw [Settings.session]
  cases settings.history m.env atTerminal <;> rfl

/-- No user of this name is known, so no line is read, whatever the input holds. -/
theorem session_without_home :
    Settings.session { historyFile := some (.ofText "~nobody_42".toText) }
      { tree := .root, directory := [], env := [] } true
      [.text "echo a".toText, .text "exit 4".toText] = .error .undetermined := by
  rfl

end LineShell
