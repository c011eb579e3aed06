import LineShell.Proofs.Host.FileTree
import LineShell.Proofs.Shell.Answer

/-!
# What a line may do

A line changes one file at most, and only the one that its redirection points to; it changes the
working directory only by `cd`, and it starts one program at most.  `Confined` says so of one line,
and `RunConfined` of a run of lines.  Main statement: `effects_confined`.
-/

namespace LineShell

namespace Shell

/-- The redirection of the line points to a path. -/
def Targets (shell : Shell) (host : Host) (line : Text) (p : Path) : Prop :=
  ∃ words r, shell.Asks line words (some r) ∧ host.Names r.path p

def ChangesDirectory (shell : Shell) (line : Text) : Prop :=
  ∃ args redirection, shell.Asks line (Builtin.cd.name :: args) redirection

def Launches (shell : Shell) (host : Host) (line : Text) (start : Start) : Prop :=
  ∃ name args redirection path, shell.Asks line (name :: args) redirection ∧
    Builtin.ofName? name = none ∧
    host.findProgram (shell.searchPath.directories host.env) name = some path ∧
    start = { executable := path, argv := name :: args, directory := host.directory }

/-- Without a command there is nothing to write, so the target is only made, emptied or opened. -/
def OnlyOpens (before after : Host) : Option Redirection → Prop
  | none => after = before
  | some r => ∃ failed, Host.Writing before r.mode r.path [] failed after

/-- What a line with a reply may have done to a host, whether the reply was delivered or not. -/
structure Confined (shell : Shell) (line : Text) (reply : Reply) (before after : Host) : Prop where
  env : after.env = before.env
  -- The target is looked up in the working directory that the command leaves.
  file : ∀ p, after.tree.find? p ≠ before.tree.find? p →
    shell.Targets { before with directory := after.directory } line p ∧
      ∃ file faults, after.tree.find? p = some { content := .file file, faults }
  single : ∀ p q, after.tree.find? p ≠ before.tree.find? p →
    after.tree.find? q ≠ before.tree.find? q → p = q
  directory : after.directory ≠ before.directory →
    shell.ChangesDirectory line ∧ reply.exitCode = 0
  start : after.started = before.started ∨
    ∃ start, shell.Launches before line start ∧ after.started = before.started ++ [start]
  blank : Text.trim line = [] → after = before
  unreadable : ∀ e, Instruction.ofLine shell.modes (Text.trim line) = .error e → after = before
  wordless : ∀ redirection, shell.Asks line [] redirection → OnlyOpens before after redirection

section

variable {shell : Shell} {s after : Session} {host done : Host} {line : Text} {reply : Reply}

theorem Asks.unique {words words' : List Text} {redirection redirection' : Option Redirection}
    (h : shell.Asks line words redirection) (h' : shell.Asks line words' redirection') :
    words = words' ∧ redirection = redirection' := by
  have heq := Except.ok.inj (h.symm.trans h')
  exact ⟨congrArg Instruction.words heq, congrArg Instruction.redirection heq⟩

theorem Targets.unique {p q : Path} (hp : shell.Targets host line p)
    (hq : shell.Targets host line q) : p = q := by
  rcases hp with ⟨words, r, hasks, hnames⟩
  rcases hq with ⟨words', r', hasks', hnames'⟩
  cases (hasks.unique hasks').2
  exact hnames.unique hnames'

/-! ## What the command of a line does -/

theorem Answered.tree_env_eq {result : Except Failure Reply}
    (h : Answered shell host line result done) : done.tree = host.tree ∧ done.env = host.env := by
  cases h with
  | unreadable => exact ⟨rfl, rfl⟩
  | idle => exact ⟨rfl, rfl⟩
  | carriedOut _ _ hexecution => exact hexecution.tree_env_eq
  | failed _ _ hexecution => exact hexecution.tree_env_eq

theorem Answered.directory_eq (h : Answered shell host line (.ok reply) done) :
    done.directory = host.directory ∨ shell.ChangesDirectory line ∧ reply.exitCode = 0 := by
  cases h with
  | unreadable => exact .inl rfl
  | idle => exact .inl rfl
  | carriedOut hasks hcommand hexecution =>
    rcases hexecution.directory_eq with hsame | ⟨args, rfl, hresult⟩
    · exact .inl hsame
    · cases hresult
      rw [Command.ofWords?_eq_builtin hcommand] at hasks
      exact .inr ⟨⟨args, _, hasks⟩, rfl⟩

theorem Answered.started_eq (h : Answered shell host line (.ok reply) done) :
    done.started = host.started ∨
      ∃ start, shell.Launches host line start ∧ done.started = host.started ++ [start] := by
  cases h with
  | unreadable => exact .inl rfl
  | idle => exact .inl rfl
  | carriedOut hasks hcommand hexecution =>
    rcases hexecution.started_eq with hsame | ⟨name, path, args, rfl, hstarted⟩
    · exact .inl hsame
    · rcases Command.ofWords?_eq_external hcommand with ⟨rfl, hbuiltin, hfind⟩
      exact .inr ⟨_, ⟨name, args, _, path, hasks, hbuiltin, hfind, rfl⟩, hstarted⟩

theorem Answered.asks_of_redirection (h : Answered shell host line (.ok reply) done)
    {r : Redirection} (hr : r ∈ reply.redirection) : ∃ words, shell.Asks line words (some r) := by
  cases h with
  | unreadable => cases hr
  | idle hasks =>
    cases hr
    exact ⟨_, hasks⟩
  | carriedOut hasks =>
    cases hr
    exact ⟨_, hasks⟩

/-! ## What a whole line does -/

/-- A line without a reply leaves everything but the log as it was. -/
theorem runLine_unanswered {failure : Failure}
    (h : (shell.answer s.machine line).1 = .error failure) :
    (shell.runLine s line).1 = .error failure ∧
      (shell.runLine s line).2.machine.toHost = s.machine.toHost ∧
      (shell.runLine s line).2.machine.terminal = s.machine.terminal ∧
      (shell.runLine s line).2.status = s.status := by
  obtain ⟨hanswered, hterminal⟩ := shell.answer_answered s.machine line
  rw [runLine]
  generalize shell.answer s.machine line = answered at h hanswered hterminal
  obtain ⟨result, m⟩ := answered
  cases h
  exact ⟨rfl, hanswered.eq_error.2, hterminal, rfl⟩

/-- A line with a reply comes to what its delivery comes to. -/
theorem runLine_of_answer {m : Machine} (h : shell.answer s.machine line = (.ok reply, m)) :
    (shell.runLine s line).2.machine =
        (m.deliver reply.stdout reply.stderr reply.redirection).2 ∧
      match (m.deliver reply.stdout reply.stderr reply.redirection).1 with
      | none => (shell.runLine s line).1 = .ok reply ∧
          (shell.runLine s line).2.status = reply.exitCode
      | some failure => (shell.runLine s line).1 = .error failure ∧
          (shell.runLine s line).2.status = s.status := by
  rw [runLine, h]
  dsimp only
  generalize m.deliver reply.stdout reply.stderr reply.redirection = delivered
  obtain ⟨broken, left⟩ := delivered
  cases broken with
  | none => exact ⟨rfl, rfl, rfl⟩
  | some failure => exact ⟨rfl, rfl, rfl⟩

theorem runLine_answered (h : (shell.answer s.machine line).1 = .ok reply) :
    ∃ m : Machine, Answered shell s.machine.toHost line (.ok reply) m.toHost ∧
      m.terminal = s.machine.terminal ∧
      (shell.runLine s line).2.machine =
        (m.deliver reply.stdout reply.stderr reply.redirection).2 ∧
      match (m.deliver reply.stdout reply.stderr reply.redirection).1 with
      | none => (shell.runLine s line).1 = .ok reply ∧
          (shell.runLine s line).2.status = reply.exitCode
      | some failure => (shell.runLine s line).1 = .error failure ∧
          (shell.runLine s line).2.status = s.status := by
  obtain ⟨hanswered, hterminal⟩ := shell.answer_answered s.machine line
  rw [h] at hanswered
  exact ⟨_, hanswered, hterminal, runLine_of_answer (Prod.ext h rfl)⟩

/-- A line with a reply fails at most over a file whose path cannot be shown. -/
theorem runLine_of_showable (h : (shell.answer s.machine line).1 = .ok reply)
    (hshown : ∀ words r, shell.Asks line words (some r) → r.path.Showable) :
    (shell.runLine s line).1 = .ok reply ∧ (shell.runLine s line).2.status = reply.exitCode := by
  obtain ⟨m, hanswered, -, -, hresult⟩ := runLine_answered h
  have hdelivered : (m.deliver reply.stdout reply.stderr reply.redirection).1 = none := by
    cases hr : reply.redirection with
    | none => rfl
    | some r =>
      obtain ⟨words, hasks⟩ := hanswered.asks_of_redirection hr
      exact m.deliver_of_showable _ _ (hshown words r hasks)
  rw [hdelivered] at hresult
  exact hresult

/-- Only a reply that was delivered is the result of a line. -/
theorem answer_of_runLine (h : shell.runLine s line = (.ok reply, after)) :
    (shell.answer s.machine line).1 = .ok reply ∧ after.status = reply.exitCode := by
  cases hanswer : (shell.answer s.machine line).1 with
  | error failure =>
    have hfailed := (runLine_unanswered hanswer).1
    rw [h] at hfailed
    cases hfailed
  | ok other =>
    obtain ⟨m, -, -, -, hresult⟩ := runLine_answered hanswer
    rw [h] at hresult
    split at hresult
    · cases hresult.1
      exact ⟨rfl, hresult.2⟩
    · cases hresult.1

/-- A line that fails, in its command or in its delivery, leaves the status. -/
theorem status_of_runLine_error {failure : Failure}
    (h : shell.runLine s line = (.error failure, after)) : after.status = s.status := by
  cases hanswer : (shell.answer s.machine line).1 with
  | error other =>
    have hstatus := (runLine_unanswered hanswer).2.2.2
    rwa [h] at hstatus
  | ok reply =>
    obtain ⟨m, -, -, -, hresult⟩ := runLine_answered hanswer
    rw [h] at hresult
    split at hresult
    · cases hresult.1
    · exact hresult.2

/-- A line that succeeds has been answered and delivered. -/
theorem runLine_ok (h : shell.runLine s line = (.ok reply, after)) :
    ∃ m : Machine, Answered shell s.machine.toHost line (.ok reply) m.toHost ∧
      m.deliver reply.stdout reply.stderr reply.redirection = (none, after.machine) := by
  obtain ⟨m, hanswered, -, hmachine, hresult⟩ := runLine_answered (answer_of_runLine h).1
  rw [h] at hmachine hresult
  refine ⟨m, hanswered, Prod.ext ?_ hmachine.symm⟩
  cases hbroken : (m.deliver reply.stdout reply.stderr reply.redirection).1 with
  | none => rfl
  | some failure =>
    rw [hbroken] at hresult
    cases hresult.1

theorem runLine_unreadable {e : LineError} (h : (shell.answer s.machine line).1 = .ok reply)
    (hread : Instruction.ofLine shell.modes (Text.trim line) = .error e) :
    (shell.runLine s line).2.machine.toHost = s.machine.toHost := by
  obtain ⟨m, hanswered, -, hdeliver, -⟩ := runLine_answered h
  rw [hdeliver]
  generalize hhost : m.toHost = host at hanswered
  cases hanswered with
  | unreadable => exact hhost
  | idle hasks => cases hread.symm.trans hasks
  | carriedOut hasks => cases hread.symm.trans hasks

theorem runLine_wordless (h : (shell.answer s.machine line).1 = .ok reply)
    (redirection : Option Redirection) (hasks : shell.Asks line [] redirection) :
    OnlyOpens s.machine.toHost (shell.runLine s line).2.machine.toHost redirection := by
  obtain ⟨m, hanswered, -, hdeliver, -⟩ := runLine_answered h
  rw [hdeliver]
  generalize hhost : m.toHost = host at hanswered
  cases hanswered with
  | unreadable hread => cases hread.symm.trans hasks
  | idle hasks' =>
    cases (hasks'.unique hasks).2
    cases redirection with
    | none => exact hhost
    | some r =>
      obtain ⟨failed, hwriting, -⟩ := m.deliver_to_file [] [] r
      have hempty : withNewline (r.stream.buffer [] []) = [] := by
        cases r.stream <;> rfl
      rw [hempty, hhost] at hwriting
      exact ⟨failed, hwriting⟩
  | carriedOut hasks' hcommand =>
    cases (hasks'.unique hasks).1
    cases hcommand

/-- A command leaves the files alone, so the target is the same in the host that it leaves as in the
one before with the new working directory. -/
theorem runLine_file (h : (shell.answer s.machine line).1 = .ok reply) {p : Path}
    (hp : (shell.runLine s line).2.machine.tree.find? p ≠ s.machine.tree.find? p) :
    shell.Targets
        { s.machine.toHost with directory := (shell.runLine s line).2.machine.directory } line p ∧
      ∃ file faults, (shell.runLine s line).2.machine.tree.find? p =
        some { content := .file file, faults } := by
  obtain ⟨m, hanswered, -, hdeliver, -⟩ := runLine_answered h
  obtain ⟨hdirectory, -, -, hfile⟩ :=
    m.deliver_frame reply.stdout reply.stderr reply.redirection
  rw [← hdeliver] at hdirectory hfile
  have htree := hanswered.tree_env_eq.1
  rw [← htree] at hp
  obtain ⟨r, hr, hnames, hregular⟩ := hfile p hp
  obtain ⟨words, hasks⟩ := hanswered.asks_of_redirection hr
  exact ⟨⟨words, r, hasks, hnames.congr htree.symm hdirectory⟩, hregular⟩

/-- A line with a reply keeps to what a line may do. -/
theorem runLine_confined (h : (shell.answer s.machine line).1 = .ok reply) :
    Confined shell line reply s.machine.toHost (shell.runLine s line).2.machine.toHost := by
  obtain ⟨m, hanswered, -, hdeliver, -⟩ := runLine_answered h
  obtain ⟨hdirectory, henv, hstarted, -⟩ :=
    m.deliver_frame reply.stdout reply.stderr reply.redirection
  rw [← hdeliver] at hdirectory henv hstarted
  exact
    { env := henv.trans hanswered.tree_env_eq.2
      file := fun p hp => runLine_file h hp
      single := fun p q hp hq => (runLine_file h hp).1.unique (runLine_file h hq).1
      directory := by
        intro hchanged
        rw [hdirectory] at hchanged
        exact hanswered.directory_eq.resolve_left hchanged
      start := by
        rw [hstarted]
        exact hanswered.started_eq
      blank := by
        intro hblank
        refine runLine_wordless h none ?_
        rw [Asks, hblank]
        exact ofLine_nil shell.modes
      unreadable := fun e he => runLine_unreadable h he
      wordless := runLine_wordless h }

end

/-! ## Runs of lines -/

/-- A shell processes lines one after another; a line that has no reply is passed over. -/
def runLines (shell : Shell) (s : Session) (lines : List Text) : Session :=
  lines.foldl (fun s line => (shell.runLine s line).2) s

def Writes (shell : Shell) (s : Session) (line : Text) (p : Path) : Prop :=
  ∃ reply, (shell.answer s.machine line).1 = .ok reply ∧
    shell.Targets
      { s.machine.toHost with directory := (shell.runLine s line).2.machine.directory } line p

/-- The line has a reply in a session, and it is a `cd` that succeeds. -/
def Moves (shell : Shell) (s : Session) (line : Text) : Prop :=
  ∃ reply, (shell.answer s.machine line).1 = .ok reply ∧ shell.ChangesDirectory line ∧
    reply.exitCode = 0

/-- Some line of a run has a property in the session that the lines in front of it leave. -/
def SomeLine (shell : Shell) (s : Session) (lines : List Text) (P : Session → Text → Prop) : Prop :=
  ∃ front line rest, lines = front ++ line :: rest ∧ P (shell.runLines s front) line

/-- What a run of lines may have done to the host of a session. -/
structure RunConfined (shell : Shell) (s : Session) (lines : List Text) : Prop where
  env : (shell.runLines s lines).machine.env = s.machine.env
  file : ∀ p, (shell.runLines s lines).machine.tree.find? p ≠ s.machine.tree.find? p →
    (shell.SomeLine s lines fun s line => shell.Writes s line p) ∧ ∃ file faults,
      (shell.runLines s lines).machine.tree.find? p = some { content := .file file, faults }
  directory : (shell.runLines s lines).machine.directory ≠ s.machine.directory →
    shell.SomeLine s lines shell.Moves
  start : ∃ starts, (shell.runLines s lines).machine.started = s.machine.started ++ starts ∧
    starts.length ≤ lines.length ∧ ∀ start ∈ starts,
      shell.SomeLine s lines fun s line => shell.Launches s.machine.toHost line start

section

variable {shell : Shell} {s : Session} {front rest : List Text} {P : Session → Text → Prop}

theorem runLines_append (shell : Shell) (s : Session) (front rest : List Text) :
    shell.runLines s (front ++ rest) = shell.runLines (shell.runLines s front) rest :=
  List.foldl_append

/-- What holds of a line holds of it in a longer run. -/
theorem SomeLine.append_left (h : shell.SomeLine s front P) (rest : List Text) :
    shell.SomeLine s (front ++ rest) P := by
  rcases h with ⟨before, line, behind, rfl, h⟩
  exact ⟨before, line, behind ++ rest, by simp, h⟩

theorem SomeLine.append_right (h : shell.SomeLine (shell.runLines s front) rest P) :
    shell.SomeLine s (front ++ rest) P := by
  rcases h with ⟨before, line, behind, rfl, h⟩
  refine ⟨front ++ before, line, behind, by simp, ?_⟩
  rw [runLines_append]
  exact h

theorem someLine_singleton {line : Text} (h : P s line) : shell.SomeLine s [line] P :=
  ⟨[], line, [], rfl, h⟩

theorem runConfined_singleton (shell : Shell) (s : Session) (line : Text) :
    RunConfined shell s [line] := by
  have hrun : shell.runLines s [line] = (shell.runLine s line).2 := rfl
  cases hanswer : (shell.answer s.machine line).1 with
  | error failure =>
    -- Without a reply nothing has happened.
    have hsame := (runLine_unanswered hanswer).2.1
    constructor
    · rw [hrun, hsame]
    · intro p hp
      rw [hrun, hsame] at hp
      exact absurd rfl hp
    · intro hd
      rw [hrun, hsame] at hd
      exact absurd rfl hd
    · refine ⟨[], ?_, by simp, by simp⟩
      rw [hrun, hsame, List.append_nil]
  | ok reply =>
    have hconfined := runLine_confined hanswer
    constructor
    · rw [hrun]
      exact hconfined.env
    · intro p hp
      rw [hrun] at hp ⊢
      obtain ⟨htargets, hregular⟩ := hconfined.file p hp
      exact ⟨someLine_singleton ⟨reply, hanswer, htargets⟩, hregular⟩
    · intro hd
      rw [hrun] at hd
      obtain ⟨hcd, hcode⟩ := hconfined.directory hd
      exact someLine_singleton ⟨reply, hanswer, hcd, hcode⟩
    · rw [hrun]
      rcases hconfined.start with hsame | ⟨start, hlaunches, hstarted⟩
      · exact ⟨[], by rw [hsame, List.append_nil], by simp, by simp⟩
      · refine ⟨[start], hstarted, by simp, fun other hother => ?_⟩
        rw [List.mem_singleton.mp hother]
        exact someLine_singleton hlaunches

/-- Two runs, one behind the other, keep to what a run may do. -/
theorem RunConfined.append (h : RunConfined shell s front)
    (h' : RunConfined shell (shell.runLines s front) rest) :
    RunConfined shell s (front ++ rest) := by
  have hrun := shell.runLines_append s front rest
  constructor
  · rw [hrun, h'.env, h.env]
  · intro p hp
    rw [hrun] at hp ⊢
    -- The file is changed by the lines behind, or they leave it as those in front have made it.
    by_cases hlater : (shell.runLines (shell.runLines s front) rest).machine.tree.find? p =
        (shell.runLines s front).machine.tree.find? p
    · rw [hlater] at hp ⊢
      exact ⟨(h.file p hp).1.append_left rest, (h.file p hp).2⟩
    · exact ⟨(h'.file p hlater).1.append_right, (h'.file p hlater).2⟩
  · intro hd
    rw [hrun] at hd
    by_cases hlater : (shell.runLines (shell.runLines s front) rest).machine.directory =
        (shell.runLines s front).machine.directory
    · rw [hlater] at hd
      exact (h.directory hd).append_left rest
    · exact (h'.directory hlater).append_right
  · rcases h.start with ⟨starts, hstarted, hlength, hmade⟩
    rcases h'.start with ⟨more, hstarted', hlength', hmade'⟩
    refine ⟨starts ++ more, ?_, ?_, ?_⟩
    · rw [hrun, hstarted', hstarted, List.append_assoc]
    · rw [List.length_append, List.length_append]
      omega
    · intro start hstart
      rcases List.mem_append.mp hstart with hstart | hstart
      · exact (hmade start hstart).append_left rest
      · exact (hmade' start hstart).append_right

theorem runConfined_nil (shell : Shell) (s : Session) : RunConfined shell s [] where
  env := rfl
  file p hp := absurd rfl hp
  directory hd := absurd rfl hd
  start := ⟨[], (List.append_nil _).symm, by simp, by simp⟩

theorem runLines_confined (shell : Shell) (s : Session) (lines : List Text) :
    RunConfined shell s lines := by
  induction lines generalizing s with
  | nil => exact shell.runConfined_nil s
  | cons line rest ih => exact (shell.runConfined_singleton s line).append (ih _)

end

/-- Whatever a line with a reply does is confined, and so is what a run of lines does: every file
that the run has changed was the target of a redirection that was carried out, at the place where it
pointed then.  A delivery that breaks off does no more than one that does not. -/
theorem effects_confined (shell : Shell) (s : Session) :
    (∀ line reply after, shell.runLine s line = (.ok reply, after) →
      Confined shell line reply s.machine.toHost after.machine.toHost) ∧
    (∀ line reply, (shell.answer s.machine line).1 = .ok reply →
      Confined shell line reply s.machine.toHost (shell.runLine s line).2.machine.toHost) ∧
    ∀ lines, RunConfined shell s lines := by
  refine ⟨?_, fun _ _ h => runLine_confined h, shell.runLines_confined s⟩
  intro line reply after h
  have hconfined := runLine_confined (answer_of_runLine h).1
  rw [h] at hconfined
  exact hconfined

/-- What every line keeps, a run of lines keeps. -/
theorem runLines_keeps (shell : Shell) {P : Session → Prop}
    (hline : ∀ s line, P s → P (shell.runLine s line).2) {s : Session} (h : P s)
    (lines : List Text) : P (shell.runLines s lines) := by
  induction lines generalizing s with
  | nil => exact h
  | cons line rest ih => exact ih (hline s line h)

end Shell

end LineShell
