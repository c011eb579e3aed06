import LineShell.Proofs.CommandLine.Options
import LineShell.Proofs.Session.Reads

/-!
# Ways into a session

A line reaches the shell as the value of an option, as a line of plain input, or by way of a line
editor.  Main statements: `command_option_agrees_with_input`, a run of a single line ends as a
session that reads the line and then meets the end of its input; and
`editor_agrees_with_plain_reading`, the same lines give the same session, whoever reads them.
-/

namespace LineShell

/-! ## Lines as they are read -/

section

variable {line : Text}

theorem linesOf_line (h : .char '\n' ∉ line) :
    linesOf (line ++ [.char '\n']) = [line ++ [.char '\n']] := by
  induction line with
  | nil => rfl
  | cons c rest ih =>
    rw [List.mem_cons, not_or] at h
    rw [List.cons_append, linesOf, if_neg (Ne.symm h.1), ih h.2]

theorem dropWhile_newline_reverse (h : .char '\n' ∉ line) :
    line.reverse.dropWhile (· == .char '\n') = line.reverse := by
  apply List.dropWhile_eq_self_iff.mpr
  intro hpos hnewline
  rw [beq_iff_eq] at hnewline
  exact h (List.mem_reverse.mp (hnewline ▸ List.getElem_mem hpos))

/-- Plain reading takes a line without the newline that ends it. -/
theorem Reader.read_plain_line (h : .char '\n' ∉ line) :
    Reader.plain.read (some (.text (line ++ [.char '\n']))) = .line line := by
  simp [Reader.read, dropWhile_newline_reverse h]

/-- Where the input ends without a newline, the last line has none. -/
theorem Reader.read_plain_unended (h : .char '\n' ∉ line) (hne : line ≠ []) :
    Reader.plain.read (some (.text line)) = .line line := by
  simp [Reader.read, hne, dropWhile_newline_reverse h]

end

/-! ## A single line -/

/-- Two runs end alike, with the same sinks of the log, and leave the same machine but for
prompts. -/
structure Report.Agrees (r r' : Report) : Prop where
  ending : r.ending = r'.ending
  sinks : r.sinks = r'.sinks
  machine : r.machine.unprompted = r'.machine.unprompted

theorem Report.Agrees.refl (r : Report) : r.Agrees r := ⟨rfl, rfl, rfl⟩

/-- With the prompts left out, a session that reads one line from plain input does what the line
does by itself. -/
theorem Loop.run_line (loop : Loop) (hreader : loop.reader = .plain) {line : Text}
    (hline : .char '\n' ∉ line) (s : Session) :
    (loop.run s ((linesOf (line ++ [.char '\n'])).map .text)).unprompted =
      (loop.runLine s line).2.unprompted := by
  have hread : loop.reader.read (some (.text (line ++ [.char '\n']))) = .line line := by
    rw [hreader]
    exact Reader.read_plain_line hline
  have hhandle : loop.handle s.unprompted (.line line) = (loop.runLine s line).2.unprompted :=
    (loop.unprompted_handle s (.line line)).symm
  rw [unprompted_run, linesOf_line hline, List.map_singleton, reads_cons, hread]
  -- The end of the input is met unless the line stops the session.
  split
  · exact hhandle
  · exact hhandle

def Plan.conclude (input : List ReadEvent) : Plan → Report
  | .finished report => report
  | .session loop m sinks history =>
    let s := loop.run { machine := m } input
    { ending := .exit s.status, machine := s.machine, sinks, history }

namespace Invocation

/-- A run is the conclusion of its plan. -/
theorem run_eq_conclude (inv : Invocation) (m : Machine) :
    inv.run m = (inv.plan m).conclude inv.input := by
  rw [run]
  cases inv.plan m <;> rfl

/-- Options that ask for no help lead to the settings. -/
theorem plan_of_options {inv : Invocation} {o : Options} (m : Machine)
    (h : Options.ofArguments inv.args = .ok o) :
    inv.plan m =
      if o.help then
        .finished { ending := .exit 0, machine := m.print .stdout (Utf8.encode Options.helpText) }
      else
        match Settings.ofSources (inv.sources o (inv.complain m).env) with
        | .error invalid =>
          .finished
            { ending := .exit invalidSettingsStatus
              machine := (inv.complain m).print .stderr
                (Utf8.encode (shellName ++ ": invalid configuration: ".toList ++
                  invalid.summary ++ ['\n'])) }
        | .ok settings => inv.planUnder o settings (inv.complain m) := by
  unfold plan
  split
  · next error hargs => cases hargs.symm.trans h
  · next o' hargs =>
    cases hargs.symm.trans h
    rfl

theorem planUnder_of_command (inv : Invocation) {o : Options} (settings : Settings) (m : Machine)
    {line : Text} (h : o.command = some line) :
    inv.planUnder o settings m =
      match (({} : LogSetup).install (.ofChars settings.logLevel) defaultProfile).1 with
      | .error error => .finished { ending := .broken (.unknownLevel error), machine := m }
      | .ok sinks => .finished (oneLine settings sinks m line) := by
  simp only [planUnder, isInteractive, h, Option.isNone_some, Bool.false_and, Bool.false_eq_true,
    if_false]
  rcases ({} : LogSetup).install (.ofChars settings.logLevel) defaultProfile with
    ⟨error | sinks, setup⟩ <;> rfl

theorem planUnder_of_input {inv : Invocation} {o : Options} (settings : Settings) (m : Machine)
    (h : o.command = none) (hterminal : inv.atTerminal = false) :
    inv.planUnder o settings m =
      match (({} : LogSetup).install (.ofChars settings.logLevel) defaultProfile).1 with
      | .error error => .finished { ending := .broken (.unknownLevel error), machine := m }
      | .ok sinks => .session (settings.loop false) m sinks none := by
  simp only [planUnder, isInteractive, h, hterminal, Bool.and_false, Bool.false_eq_true, if_false]
  rcases ({} : LogSetup).install (.ofChars settings.logLevel) defaultProfile with
    ⟨error | sinks, setup⟩ <;> rfl

/-- A line that does not break the run off is processed as a session processes it. -/
theorem oneLine_agrees {settings : Settings} {sinks : List Sink} {m : Machine} {line : Text}
    (hline : .char '\n' ∉ line)
    (h : ∀ failure, (oneLine settings sinks m line).ending ≠ .broken (.host failure)) :
    let s := (settings.loop false).run { machine := m } ((linesOf (line ++ [.char '\n'])).map .text)
    (oneLine settings sinks m line).Agrees
      { ending := .exit s.status, machine := s.machine, sinks } := by
  intro s
  have hs : s.unprompted = _ := (settings.loop false).run_line rfl hline { machine := m }
  have hshell : (settings.loop false).shell = ({ modes := settings.modes } : Shell) := rfl
  unfold oneLine at h ⊢
  unfold Loop.runLine at hs
  rw [hshell] at hs
  rcases hrun : ({ modes := settings.modes } : Shell).runLine { machine := m } line with
    ⟨failure | reply, after⟩
  · rw [hrun] at h
    exact absurd rfl (h failure)
  · rw [hrun] at hs
    have hstatus : after.status = s.status := (congrArg Session.status hs).symm
    have hmachine : after.machine.unprompted = s.machine.unprompted :=
      (congrArg Session.machine hs).symm
    exact ⟨congrArg Ending.exit hstatus, rfl, hmachine⟩

end Invocation

/-- A line that is given with an option is processed as the only line of plain input is, whatever
the other options and the environment say: the run ends alike, and it leaves the same host, the same
output and the same log.  A run that options or settings end early ends early in both ways. -/
theorem command_option_agrees_with_input (m : Machine) (settingsFile : Option Text)
    {args : List Text} {o : Options} {line : Text} (hline : .char '\n' ∉ line)
    (hargs : Options.ofArguments args = .ok o) (hnone : o.command = none) :
    Options.ofArguments ("-c".toText :: line :: args) = .ok (o.withCommand (some line)) ∧
    ∀ (args' : List Text) (atTerminal : Bool) (input : List ReadEvent),
      Options.ofArguments args' = .ok (o.withCommand (some line)) →
      let alone : Invocation := { args := args', settingsFile, atTerminal, input }
      let piped : Invocation :=
        { args, settingsFile, input := (linesOf (line ++ [.char '\n'])).map .text }
      (∀ failure, (alone.run m).ending ≠ .broken (.host failure)) →
      (alone.run m).Agrees (piped.run m) := by
  refine ⟨Options.ofArguments_command line hargs hnone, ?_⟩
  intro args' atTerminal input hargs' alone piped hreplies
  -- Neither the sources of the settings nor the complaints depend on the command.
  have hsources : alone.sources (o.withCommand (some line)) (alone.complain m).env =
      piped.sources o (piped.complain m).env := rfl
  have hcomplain : alone.complain m = piped.complain m := rfl
  rw [alone.run_eq_conclude, Invocation.plan_of_options m hargs', hsources, hcomplain] at hreplies ⊢
  rw [piped.run_eq_conclude, Invocation.plan_of_options m hargs]
  by_cases hhelp : o.help = true
  · have hhelp' : (o.withCommand (some line)).help = true := hhelp
    rw [if_pos hhelp, if_pos hhelp']
    exact .refl _
  · have hhelp' : ¬ (o.withCommand (some line)).help = true := hhelp
    rw [if_neg hhelp'] at hreplies ⊢
    rw [if_neg hhelp]
    cases hsettings : Settings.ofSources (piped.sources o (piped.complain m).env) with
    | error invalid => exact .refl _
    | ok settings =>
      simp only [hsettings] at hreplies ⊢
      rw [alone.planUnder_of_command settings _ rfl] at hreplies ⊢
      rw [Invocation.planUnder_of_input settings _ hnone rfl]
      cases hsinks : (({} : LogSetup).install (.ofChars settings.logLevel) defaultProfile).1 with
      | error error => exact .refl _
      | ok sinks =>
        rw [hsinks] at hreplies
        exact Invocation.oneLine_agrees hline hreplies

/-- A line that is not found and whose redirection fails, given behind another option. -/
theorem command_option_agrees_with_input_not_found :
    let m : Machine := { tree := .root, directory := [], env := [] }
    let line := "nope 'a 2> /d/e".toText
    let alone : Invocation := { args := ["--log-level=debug".toText, "-cnope 'a 2> /d/e".toText] }
    let piped : Invocation :=
      { args := ["--log-level=debug".toText], input := (linesOf (line ++ [.char '\n'])).map .text }
    .char '\n' ∉ line ∧
      Options.ofArguments piped.args = .ok { logLevel := some "debug".toText } ∧
      Options.ofArguments alone.args =
        .ok { command := some line, logLevel := some "debug".toText } ∧
      (alone.run m).ending = .exit 127 ∧ (alone.run m).Agrees (piped.run m) := by
  intro m line alone piped
  have hline : .char '\n' ∉ line := by decide
  have hpiped : Options.ofArguments piped.args = .ok { logLevel := some "debug".toText } := by
    decide
  have halone : Options.ofArguments alone.args =
      .ok { command := some line, logLevel := some "debug".toText } := by decide
  have hending : (alone.run m).ending = .exit 127 := by decide
  refine ⟨hline, hpiped, halone, hending, ?_⟩
  refine (command_option_agrees_with_input m none hline hpiped rfl).2 alone.args false [] halone ?_
  intro failure
  rw [hending]
  exact Ending.noConfusion

/-! ## The same lines at a terminal and from a stream -/

/-- What a line editor is typed, and what plain reading is given for the same lines: every line has
a newline behind it, which the last one may lack unless it is empty.  Interrupts come at the same
reads. -/
inductive Piped : List ReadEvent → List ReadEvent → Prop
  | nil : Piped [] []
  | interrupt {typed piped : List ReadEvent} : Piped typed piped →
      Piped (.interrupt :: typed) (.interrupt :: piped)
  | line {t : Text} {typed piped : List ReadEvent} : .char '\n' ∉ t → Piped typed piped →
      Piped (.text t :: typed) (.text (t ++ [.char '\n']) :: piped)
  | lastLine {t : Text} {interrupts : List ReadEvent} : .char '\n' ∉ t → t ≠ [] →
      (∀ event ∈ interrupts, event = .interrupt) →
      Piped (.text t :: interrupts) (.text t :: interrupts)

/-- Either reader makes the same of the same lines. -/
theorem Piped.read_eq {typed piped : List ReadEvent} (h : Piped typed piped) :
    typed.map (fun event => Reader.editor.read (some event)) =
      piped.map fun event => Reader.plain.read (some event) := by
  induction h with
  | nil => rfl
  | interrupt _ ih => rw [List.map_cons, List.map_cons, ih]; rfl
  | line hline _ ih => rw [List.map_cons, List.map_cons, ih, Reader.read_plain_line hline]; rfl
  | lastLine hline hne hinterrupts =>
    have hrest := List.map_congr_left (g := fun event => Reader.plain.read (some event))
      (f := fun event => Reader.editor.read (some event)) fun event hevent => by
        rw [hinterrupts event hevent]
        rfl
    rw [List.map_cons, List.map_cons, Reader.read_plain_unended hline hne, hrest]
    rfl

/-- The settings decide what a session reads and does, whoever reads. -/
theorem Settings.reads_eq_of_piped (settings : Settings) (s : Session)
    {typed piped : List ReadEvent} (h : Piped typed piped) :
    (settings.loop true).reads s typed = (settings.loop false).reads s piped := by
  have hreadings : typed.map (fun event => (settings.loop true).reader.read (some event)) =
      piped.map fun event => (settings.loop false).reader.read (some event) := h.read_eq
  have hshell : (settings.loop true).shell = (settings.loop false).shell := rfl
  rw [Loop.reads, Loop.reads, hreadings]
  exact Loop.untilOver_congr hshell rfl _

/-- The same lines give the same session at a terminal and from a stream: as many reads, the same
output behind each of their prompts, the same host and log and the same status.  Every read has one
prompt, and there is no other.  Only a line editor whose history has no place holds no session. -/
theorem editor_agrees_with_plain_reading (settings : Settings) (m : Machine)
    {typed piped : List ReadEvent} (h : Piped typed piped) :
    ∃ (pages : List (List Write)) (s : Session),
      (settings.loop true).reads { machine := m } typed =
        (settings.loop false).reads { machine := m } piped ∧
      pages.length = ((settings.loop false).reads { machine := m } piped).length ∧
      (∀ page ∈ pages, ∀ write ∈ page, write.isData = true) ∧
      settings.session m false piped = .ok s ∧
      s.machine.terminal.writes = m.terminal.writes ++
        pages.flatMap (fun page => .prompt .plain settings.prompt :: page) ∧
      match settings.history m.env true with
      | .error e => settings.session m true typed = .error e
      | .ok _ => ∃ s', settings.session m true typed = .ok s' ∧ s'.status = s.status ∧
          s'.machine.unprompted = s.machine.unprompted ∧
          s'.machine.terminal.writes = m.terminal.writes ++
            pages.flatMap fun page => .prompt .editor settings.prompt :: page := by
  have hreads := settings.reads_eq_of_piped { machine := m } h
  have hhandle : (settings.loop true).handle = (settings.loop false).handle := rfl
  -- The pages are those of the plain session, read by read.
  let rs := (settings.loop false).reads { machine := m } piped
  refine ⟨(settings.loop false).pages { machine := m } rs,
    (settings.loop false).run { machine := m } piped, hreads, Loop.length_pages _ _ _,
    fun page hpage => Loop.isData_of_mem_pages _ hpage, rfl, ?_, ?_⟩
  · rw [Loop.run_eq_foldl, Loop.writes_foldl_pass]
    rfl
  · cases hhistory : settings.history m.env true with
    | error e =>
      rw [Settings.session, hhistory]
      rfl
    | ok history =>
      -- Without its prompts a run depends on nothing but the readings.
      have hsame : ((settings.loop true).run { machine := m } typed).unprompted =
          ((settings.loop false).run { machine := m } piped).unprompted := by
        rw [Loop.unprompted_run, Loop.unprompted_run, hreads, hhandle]
      have hstatus := congrArg Session.status hsame
      have hmachine := congrArg Session.machine hsame
      refine ⟨(settings.loop true).run { machine := m } typed, ?_, hstatus, hmachine, ?_⟩
      · rw [Settings.session, hhistory]
        rfl
      · rw [Loop.run_eq_foldl, hreads, Loop.writes_foldl_pass,
          Loop.pages_eq_of_handle_eq hhandle]
        rfl

/-- An empty line, an interrupt between two reads, and a last line without a newline. -/
theorem editor_agrees_with_plain_reading_of_interrupt :
    let settings : Settings := { prompt := "> ".toList }
    let m : Machine := { tree := .root, directory := [], env := [], terminal := { kind := .text } }
    let typed : List ReadEvent := [.text [], .interrupt, .text "echo a".toText, .interrupt]
    let piped : List ReadEvent :=
      [.text "\n".toText, .interrupt, .text "echo a".toText, .interrupt]
    Piped typed piped ∧ ∃ s s', settings.session m false piped = .ok s ∧
      settings.session m true typed = .ok s' ∧ s'.status = s.status ∧
      s'.machine.unprompted = s.machine.unprompted ∧
      (s'.machine.terminal.writes.filter fun write => !write.isData).length = 5 := by
  intro settings m typed piped
  have hpiped : Piped typed piped :=
    .line (by decide) (.interrupt (.lastLine (by decide) (by decide) (by decide)))
  obtain ⟨pages, s, -, hlength, hdata, hs, -, s', hs', hstatus, hsame, hwrites⟩ :=
    editor_agrees_with_plain_reading settings m hpiped
  have hrun : s' = (settings.loop true).run { machine := m } typed := (Except.ok.inj hs').symm
  refine ⟨hpiped, s, s', hs, hs', hstatus, hsame, ?_⟩
  rw [hrun]
  decide

/-- A line editor whose history has no place reads nothing, and the same lines from a stream are
read. -/
theorem editor_without_home :
    let settings : Settings := { historyFile := some (.ofText "~nobody_42".toText) }
    let m : Machine := { tree := .root, directory := [], env := [] }
    Piped [.text "exit 4".toText] [.text "exit 4\n".toText] ∧
      settings.session m true [.text "exit 4".toText] = .error .undetermined ∧
      (settings.session m false [.text "exit 4\n".toText]).map Session.status = .ok 4 :=
  ⟨.line (by decide) .nil, rfl, rfl⟩

end LineShell
