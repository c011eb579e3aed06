import LineShell.Command.Execute
import LineShell.Proofs.Host.Operation

/-!
# How commands are carried out

`Execution` lists every way in which a command can go: what it leaves, or what it fails with, and
the host afterwards.  Main statement: `execute_execution`, a command goes one of these ways and does
not touch the terminal.  What all of them have in common follows by cases: no file changes, and a
command that fails has asked for nothing.  `Execution.isError_iff` says which commands these are:
those that would ask the operating system with a text that cannot be given to it, and those that
have to say a text without bytes.
-/

namespace LineShell

def Builtin.destination (host : Host) (args : List Text) : Text :=
  expandHome (host.env.getD "HOME".toText) (cdTarget args)

def Builtin.cdComplaint (args : List Text) : Text :=
  "cd: ".toText ++ cdTarget args ++ ": No such file or directory\n".toText

def notFoundComplaint (name : Text) : Text := name ++ ": command not found\n".toText

def startComplaint (name : Text) (failure : Failure) : Text :=
  name ++ ": ".toText ++ failure.reason ++ "\n".toText

def startReport (name : Text) (failure : Failure) : Except Failure Outcome :=
  (startComplaint name failure).encode.map fun stderr =>
    { stderr, refusal := some failure.reason, exitCode := failure.exitCode }

/-- Every way in which a command can be carried out. -/
inductive Execution (host : Host) (directories : List Text) :
    Command → Except Failure Outcome → Host → Prop
  -- A builtin other than `cd` only tells something.
  | told {b : Builtin} {args : List Text} {result : Except Failure Outcome} : b ≠ .cd →
      b.perform host directories args = result.map (·, host) →
      Execution host directories (.builtin b args) result host
  | moved {args : List Text} {p : Path} :
      host.changeDirectory (Builtin.destination host args) = .ok { host with directory := p } →
      Execution host directories (.builtin .cd args) (.ok {}) { host with directory := p }
  | notMoved {args : List Text} {failure : Failure} :
      host.changeDirectory (Builtin.destination host args) = .error failure →
      failure.isAnswer = true →
      Execution host directories (.builtin .cd args)
        (Outcome.complain (Builtin.cdComplaint args) 1) host
  | directoryUnasked {args : List Text} {failure : Failure} :
      (Builtin.destination host args).toSystem = .error failure →
      Execution host directories (.builtin .cd args) (.error failure) host
  | notFound {name : Text} {args : List Text} :
      Execution host directories (.notFound name args)
        (Outcome.complain (notFoundComplaint name) notFoundStatus) host
  | ended {name path : Text} {args : List Text} {result : Host.ProgramResult} {after : Host} :
      host.start path (name :: args) = .ok (result, after) →
      after = { host with started := host.started ++
        [{ executable := path, argv := name :: args, directory := host.directory }] } →
      Execution host directories (.external name path args)
        (.ok { stdout := result.stdout, stderr := result.stderr, exitCode := result.status }) after
  | notStarted {name path : Text} {args : List Text} {failure : Failure} :
      host.start path (name :: args) = .error failure → failure.isAnswer = true →
      Execution host directories (.external name path args) (startReport name failure) host
  | programUnasked {name path : Text} {args : List Text} {failure : Failure} :
      host.start path (name :: args) = .error failure → failure.isAnswer = false →
      Execution host directories (.external name path args) (.error failure) host

/-- A builtin other than `cd` leaves the host as it found it. -/
theorem Builtin.perform_of_ne_cd {b : Builtin} (h : b ≠ .cd) (host : Host)
    (directories args : List Text) :
    ∃ result : Except Failure Outcome, b.perform host directories args = result.map (·, host) := by
  cases b with
  | cd => exact absurd rfl h
  | echo => exact ⟨_, rfl⟩
  | exit => exact ⟨.ok _, rfl⟩
  | pwd => exact ⟨_, rfl⟩
  | type => exact ⟨_, rfl⟩

/-- A `cd` changes the directory, or is not fit to be asked for, or complains of the answer. -/
theorem Builtin.perform_cd (host : Host) (directories args : List Text) :
    (∃ p, host.changeDirectory (destination host args) = .ok { host with directory := p } ∧
      perform host directories args .cd = .ok ({}, { host with directory := p })) ∨
    (∃ failure, (destination host args).toSystem = .error failure ∧
      perform host directories args .cd = .error failure) ∨
    ∃ failure, host.changeDirectory (destination host args) = .error failure ∧
      failure.isAnswer = true ∧
      perform host directories args .cd =
        (Outcome.complain (cdComplaint args) 1).map (·, host) := by
  unfold perform Builtin.changeDirectory
  dsimp only
  split
  · next moved hmoved =>
    obtain ⟨p, node, -, -, -, rfl⟩ := Host.changeDirectory_eq_ok hmoved
    exact .inl ⟨p, hmoved, rfl⟩
  · next failure hfailure =>
    split
    · next hanswer => exact .inr (.inr ⟨failure, hfailure, hanswer, rfl⟩)
    · next hanswer =>
      have hunasked := Bool.eq_false_iff.mpr hanswer
      exact .inr (.inl ⟨failure, (Host.changeDirectory_eq_error_iff hunasked).mp hfailure, rfl⟩)

namespace Machine

section

variable {m : Machine} {name path : Text} {args : List Text}

/-- A program that ends leaves its output and its exit code. -/
theorem execute_of_start (directories : List Text) {result : Host.ProgramResult} {after : Host}
    (h : m.toHost.start path (name :: args) = .ok (result, after)) :
    ∃ done : Machine, m.execute directories (.external name path args) =
        (.ok { stdout := result.stdout, stderr := result.stderr, exitCode := result.status },
          done) ∧
      done.toHost = after ∧ done.terminal = m.terminal := by
  -- The announcement in the log leaves the host and the terminal alone.
  have hhost : (m.note (.launching name path args)).toHost = m.toHost := rfl
  rw [execute, launch, hhost, h]
  exact ⟨_, rfl, rfl, rfl⟩

/-- A refusal of the operating system is reported; any other failure is left as it is. -/
theorem execute_of_start_error (directories : List Text) {failure : Failure}
    (h : m.toHost.start path (name :: args) = .error failure) :
    ∃ done : Machine, m.execute directories (.external name path args) =
        (if failure.isAnswer then startReport name failure else .error failure, done) ∧
      done.toHost = m.toHost ∧ done.terminal = m.terminal := by
  have hhost : (m.note (.launching name path args)).toHost = m.toHost := rfl
  rw [execute, launch, hhost, h]
  dsimp only
  cases failure.isAnswer with
  | true => exact ⟨_, rfl, rfl, rfl⟩
  | false => exact ⟨_, rfl, rfl, rfl⟩

end

theorem execute_external (m : Machine) (directories : List Text) (name path : Text)
    (args : List Text) :
    Execution m.toHost directories (.external name path args)
        (m.execute directories (.external name path args)).1
        (m.execute directories (.external name path args)).2.toHost ∧
      (m.execute directories (.external name path args)).2.terminal = m.terminal := by
  rcases hstart : m.toHost.start path (name :: args) with failure | ⟨result, after⟩
  · obtain ⟨done, hdone, hhost, hterminal⟩ := execute_of_start_error directories hstart
    rw [hdone, hhost]
    cases hanswer : failure.isAnswer with
    | true => exact ⟨.notStarted hstart hanswer, hterminal⟩
    | false => exact ⟨.programUnasked hstart hanswer, hterminal⟩
  · obtain ⟨done, hdone, hhost, hterminal⟩ := execute_of_start directories hstart
    rw [hdone, hhost]
    exact ⟨.ended hstart (Host.start_eq_ok hstart), hterminal⟩

/-- A builtin leaves what it performs, and the host that comes with it. -/
theorem execute_builtin {m : Machine} {directories args : List Text} {b : Builtin}
    {result : Except Failure Outcome} {host : Host}
    (h : b.perform m.toHost directories args = result.map (·, host)) :
    (m.execute directories (.builtin b args)).1 = result ∧
      (m.execute directories (.builtin b args)).2.terminal = m.terminal ∧
      (m.execute directories (.builtin b args)).2.toHost =
        if result.isOk then host else m.toHost := by
  rw [execute, h]
  cases result with
  | error failure => exact ⟨rfl, rfl, rfl⟩
  | ok outcome => exact ⟨rfl, rfl, rfl⟩

/-- A command goes one of the ways that are listed, and the terminal stays as it is. -/
theorem execute_execution (m : Machine) (directories : List Text) (command : Command) :
    Execution m.toHost directories command (m.execute directories command).1
        (m.execute directories command).2.toHost ∧
      (m.execute directories command).2.terminal = m.terminal := by
  cases command with
  | notFound name args => exact ⟨.notFound, rfl⟩
  | external name path args => exact m.execute_external directories name path args
  | builtin b args =>
    -- What is told leaves the host as it is, whether it can be said or not.
    have htold : ∀ {result : Except Failure Outcome},
        b.perform m.toHost directories args = result.map (·, m.toHost) →
        (m.execute directories (.builtin b args)).1 = result ∧
          (m.execute directories (.builtin b args)).2.terminal = m.terminal ∧
          (m.execute directories (.builtin b args)).2.toHost = m.toHost := by
      intro result hperform
      have h := execute_builtin hperform
      rwa [ite_self] at h
    by_cases hcd : b = .cd
    · subst hcd
      rcases Builtin.perform_cd m.toHost directories args with
        ⟨p, hmoved, hperform⟩ | ⟨failure, hfailure, hperform⟩ |
          ⟨failure, hfailure, hanswer, hperform⟩
      · rw [execute, hperform]
        exact ⟨.moved hmoved, rfl⟩
      · rw [execute, hperform]
        exact ⟨.directoryUnasked hfailure, rfl⟩
      · obtain ⟨hresult, hterminal, hhost⟩ := htold hperform
        rw [hresult, hhost]
        exact ⟨.notMoved hfailure hanswer, hterminal⟩
    · obtain ⟨result, hperform⟩ := Builtin.perform_of_ne_cd hcd m.toHost directories args
      obtain ⟨hresult, hterminal, hhost⟩ := htold hperform
      rw [hresult, hhost]
      exact ⟨.told hcd hperform, hterminal⟩

end Machine

/-! ## What the ways of carrying out a command have in common -/

namespace Execution

variable {host after : Host} {directories : List Text} {command : Command}
  {result : Except Failure Outcome}

/-- No command touches the file tree or the environment. -/
theorem tree_env_eq (h : Execution host directories command result after) :
    after.tree = host.tree ∧ after.env = host.env := by
  cases h with
  | ended _ hafter => rw [hafter]; exact ⟨rfl, rfl⟩
  | told | moved | notMoved | directoryUnasked | notFound | notStarted | programUnasked =>
    exact ⟨rfl, rfl⟩

/-- Only a `cd` without a complaint moves to another directory. -/
theorem directory_eq (h : Execution host directories command result after) :
    after.directory = host.directory ∨
      ∃ args, command = .builtin .cd args ∧ result = .ok {} := by
  cases h with
  | moved => exact .inr ⟨_, rfl, rfl⟩
  | ended _ hafter => rw [hafter]; exact .inl rfl
  | told | notMoved | directoryUnasked | notFound | notStarted | programUnasked => exact .inl rfl

/-- Only a program is started, and only one, in the directory of the host. -/
theorem started_eq (h : Execution host directories command result after) :
    after.started = host.started ∨ ∃ name path args, command = .external name path args ∧
      after.started = host.started ++
        [{ executable := path, argv := name :: args, directory := host.directory }] := by
  cases h with
  | ended _ hafter => rw [hafter]; exact .inr ⟨_, _, _, rfl, rfl⟩
  | told | moved | notMoved | directoryUnasked | notFound | notStarted | programUnasked =>
    exact .inl rfl

end Execution

/-! ## The command that words make -/

namespace Command

variable {host : Host} {directories : List Text}

theorem exists_ofWords?_cons (host : Host) (directories : List Text) (name : Text)
    (args : List Text) : ∃ command, ofWords? host directories (name :: args) = some command := by
  unfold ofWords?
  dsimp only
  split
  · exact ⟨_, rfl⟩
  · split <;> exact ⟨_, rfl⟩

/-- A program is what a first word stands for that is no builtin and is found. -/
theorem ofWords?_eq_external {words : List Text} {name path : Text} {args : List Text}
    (h : ofWords? host directories words = some (.external name path args)) :
    words = name :: args ∧ Builtin.ofName? name = none ∧
      host.findProgram directories name = some path := by
  unfold ofWords? at h
  split at h
  · cases h
  · split at h
    · cases h
    · next hbuiltin =>
      split at h
      · next hfind =>
        cases h
        exact ⟨rfl, hbuiltin, hfind⟩
      · cases h

theorem ofWords?_builtin (host : Host) (directories : List Text) (b : Builtin) (args : List Text) :
    ofWords? host directories (b.name :: args) = some (.builtin b args) := by
  rw [ofWords?, Builtin.ofName?_name]

theorem ofWords?_eq_builtin {words args : List Text} {b : Builtin}
    (h : ofWords? host directories words = some (.builtin b args)) : words = b.name :: args := by
  unfold ofWords? at h
  split at h
  · cases h
  · next name rest =>
    split at h
    · next b' hb =>
      cases h
      rw [Builtin.ofName?] at hb
      have hname := List.find?_some hb
      rw [eq_of_beq hname]
    · split at h <;> cases h

end Command

/-! ## What keeps a command from what it is for -/

/-- The operating system would be asked with a text that cannot be given to it: the directory that
`cd` goes to, or an argument of a program. -/
def Command.Unaskable (host : Host) : Command → Prop
  | .builtin .cd args => ¬ (Builtin.destination host args).Askable
  | .builtin _ _ => False
  | .external _ _ args => ∃ arg ∈ args, ¬ arg.Askable
  | .notFound _ _ => False

/-- Something that a command can meet and has to tell of, with the message and the exit code. -/
inductive Obstacle (host : Host) (directories : List Text) : Command → Text → Int → Prop
  | unknown (name : Text) (args : List Text) :
      Obstacle host directories (.notFound name args) (notFoundComplaint name) notFoundStatus
  | start {name path : Text} {args : List Text} {failure : Failure} :
      host.start path (name :: args) = .error failure → failure.isAnswer = true →
      Obstacle host directories (.external name path args) (startComplaint name failure)
        failure.exitCode
  | directory {args : List Text} {failure : Failure} :
      host.changeDirectory (Builtin.destination host args) = .error failure →
      failure.isAnswer = true →
      Obstacle host directories (.builtin .cd args) (Builtin.cdComplaint args) 1
  | gone {args : List Text} {error : Errno} : host.workingDirectory = .error error →
      Obstacle host directories (.builtin .pwd args)
        ("pwd: ".toText ++ error.reason ++ "\n".toText) 1
  | undescribed {args : List Text} {name : Text} : name ∈ args → Builtin.ofName? name = none →
      host.findProgram directories name = none →
      Obstacle host directories (.builtin .type args) (name ++ ": not found\n".toText) 1

/-- A text that a command has to say: what it is asked for, or what it has met. -/
inductive Wording (host : Host) (directories : List Text) : Command → Text → Prop
  | echo (args : List Text) :
      Wording host directories (.builtin .echo args) (joinWith " ".toText args ++ "\n".toText)
  | directory {args : List Text} {directory : Text} : host.workingDirectory = .ok directory →
      Wording host directories (.builtin .pwd args) (directory ++ "\n".toText)
  | description {args : List Text} {name line : Text} : name ∈ args →
      Builtin.describe host directories name = .inl line →
      Wording host directories (.builtin .type args) line
  | complaint {command : Command} {message : Text} {code : Int} :
      Obstacle host directories command message code → Wording host directories command message

/-- The command would ask with a text that cannot be given to the operating system, or say one that
cannot be shown. -/
def Command.Breaks (host : Host) (directories : List Text) (command : Command) : Prop :=
  command.Unaskable host ∨ ∃ text, Wording host directories command text ∧ ¬ text.Showable

theorem Outcome.say_isError_iff {t : Text} :
    (∃ failure, Outcome.say t = .error failure) ↔ ¬ t.Showable := by
  rw [Outcome.say, Host.isError_map_iff, Text.not_showable_iff]

theorem Outcome.complain_isError_iff {t : Text} {code : Int} :
    (∃ failure, Outcome.complain t code = .error failure) ↔ ¬ t.Showable := by
  rw [Outcome.complain, Host.isError_map_iff, Text.not_showable_iff]

section

variable {host after : Host} {directories : List Text} {command : Command} {failure : Failure}
  {result : Except Failure Outcome} {message : Text} {code : Int}

theorem Builtin.describe_eq_inr {name : Text} (hbuiltin : ofName? name = none)
    (hfind : host.findProgram directories name = none) :
    describe host directories name = .inr (name ++ ": not found\n".toText) := by
  rw [describe, hbuiltin, hfind]
  rfl

/-- Every line of a description is the wording of something. -/
theorem Builtin.describe_cases {args : List Text} {name : Text} (hname : name ∈ args) (line : Text)
    (h : describe host directories name = .inl line ∨ describe host directories name = .inr line) :
    Wording host directories (.builtin .type args) line := by
  rcases h with h | h
  · exact .description hname h
  · unfold describe at h
    split at h
    · cases h
    · next hbuiltin =>
      split at h
      · cases h
      · next hfind =>
        cases h
        exact .complaint (.undescribed hname (Option.not_isSome_iff_eq_none.mp hbuiltin) hfind)

/-- Every line of the output is said of one of the names. -/
theorem Builtin.mem_told_iff {names : List Text} {line : Text} :
    line ∈ (names.map (describe host directories)).filterMap Sum.getLeft? ↔
      ∃ name ∈ names, describe host directories name = .inl line := by
  simp only [List.mem_filterMap, List.mem_map, Sum.getLeft?_eq_some_iff]
  constructor
  · rintro ⟨_, ⟨name, hname, rfl⟩, hline⟩
    exact ⟨name, hname, hline⟩
  · rintro ⟨name, hname, hline⟩
    exact ⟨_, ⟨name, hname, rfl⟩, hline⟩

/-- Every line of the complaint is said of one of the names. -/
theorem Builtin.mem_complained_iff {names : List Text} {line : Text} :
    line ∈ (names.map (describe host directories)).filterMap Sum.getRight? ↔
      ∃ name ∈ names, describe host directories name = .inr line := by
  simp only [List.mem_filterMap, List.mem_map, Sum.getRight?_eq_some_iff]
  constructor
  · rintro ⟨_, ⟨name, hname, rfl⟩, hline⟩
    exact ⟨name, hname, hline⟩
  · rintro ⟨name, hname, hline⟩
    exact ⟨_, ⟨name, hname, rfl⟩, hline⟩

/-- A description has an outcome exactly if its lines have bytes, and these are what is left. -/
theorem Builtin.describeAll_eq_ok_iff {names : List Text} {outcome : Outcome} :
    describeAll host directories names = .ok outcome ↔ ∃ stdout stderr,
      Text.encode ((names.map (describe host directories)).filterMap Sum.getLeft?).flatten =
        .ok stdout ∧
      Text.encode ((names.map (describe host directories)).filterMap Sum.getRight?).flatten =
        .ok stderr ∧
      outcome = { stdout, stderr, exitCode :=
        if ((names.map (describe host directories)).filterMap Sum.getRight?).isEmpty then 0
        else 1 } := by
  constructor
  · intro h
    obtain ⟨stdout, hstdout, h⟩ := Host.bind_eq_ok h
    obtain ⟨stderr, hstderr, h⟩ := Host.bind_eq_ok h
    exact ⟨stdout, stderr, hstdout, hstderr, (Except.ok.inj h).symm⟩
  · rintro ⟨stdout, stderr, hstdout, hstderr, rfl⟩
    rw [describeAll]
    simp only [bind, Except.bind, hstdout, hstderr]
    rfl

/-- Names can be described exactly if everything that is said of them can be shown. -/
theorem Builtin.describeAll_isError_iff {names : List Text} :
    (∃ failure, describeAll host directories names = .error failure) ↔
      ∃ text, Wording host directories (.builtin .type names) text ∧ ¬ text.Showable := by
  -- Both directions are over the texts that are said, so failing is read off succeeding.
  have hok : (∃ outcome, describeAll host directories names = .ok outcome) ↔
      ∀ text, Wording host directories (.builtin .type names) text → text.Showable := by
    simp only [describeAll_eq_ok_iff]
    constructor
    · rintro ⟨_, stdout, stderr, hstdout, hstderr, -⟩ text hwording
      have htold := Text.showable_flatten_iff.mp ⟨stdout, hstdout⟩
      have hcomplained := Text.showable_flatten_iff.mp ⟨stderr, hstderr⟩
      cases hwording with
      | description hname hline => exact htold text (mem_told_iff.mpr ⟨_, hname, hline⟩)
      | complaint hobstacle =>
        cases hobstacle with
        | undescribed hname hbuiltin hfind =>
          exact hcomplained _ (mem_complained_iff.mpr ⟨_, hname, describe_eq_inr hbuiltin hfind⟩)
    · intro hshowable
      have htold : Text.Showable
          ((names.map (describe host directories)).filterMap Sum.getLeft?).flatten := by
        refine Text.showable_flatten_iff.mpr fun line hline => ?_
        obtain ⟨name, hname, hline⟩ := mem_told_iff.mp hline
        exact hshowable line (describe_cases hname line (.inl hline))
      have hcomplained : Text.Showable
          ((names.map (describe host directories)).filterMap Sum.getRight?).flatten := by
        refine Text.showable_flatten_iff.mpr fun line hline => ?_
        obtain ⟨name, hname, hline⟩ := mem_complained_iff.mp hline
        exact hshowable line (describe_cases hname line (.inr hline))
      obtain ⟨stdout, hstdout⟩ := htold
      obtain ⟨stderr, hstderr⟩ := hcomplained
      exact ⟨_, stdout, stderr, hstdout, hstderr, rfl⟩
  cases hall : describeAll host directories names with
  | ok outcome => simpa [hall] using hok
  | error failure => simpa [hall] using hok

/-- A command that has one text to say, and no other, can say everything if it can say this. -/
theorem exists_wording_iff {message : Text} (h : Wording host directories command message)
    (honly : ∀ text, Wording host directories command text → text = message) :
    (∃ text, Wording host directories command text ∧ ¬ text.Showable) ↔ ¬ message.Showable := by
  constructor
  · rintro ⟨text, hwording, htext⟩
    rwa [honly text hwording] at htext
  · exact fun hmessage => ⟨message, h, hmessage⟩

/-- A builtin that only tells something fails exactly if it has to say a text that cannot be
shown. -/
theorem Builtin.tells_isError_iff {b : Builtin} (hcd : b ≠ .cd) {args : List Text}
    (h : b.perform host directories args = result.map (·, host)) :
    (∃ failure, result = .error failure) ↔
      ∃ text, Wording host directories (.builtin b args) text ∧ ¬ text.Showable := by
  rw [← Host.isError_map_iff, ← h]
  cases b with
  | cd => exact absurd rfl hcd
  | exit =>
    refine iff_of_false (by simp [perform]) ?_
    rintro ⟨text, hwording, -⟩
    cases hwording with
    | complaint hobstacle => cases hobstacle
  | echo =>
    rw [perform, Host.isError_map_iff, Outcome.say_isError_iff]
    refine (exists_wording_iff (.echo args) fun text hwording => ?_).symm
    cases hwording with
    | echo => rfl
    | complaint hobstacle => cases hobstacle
  | pwd =>
    rw [perform, Host.isError_map_iff, tellDirectory]
    split
    · next directory hdirectory =>
      rw [Outcome.say_isError_iff]
      refine (exists_wording_iff (.directory hdirectory) fun text hwording => ?_).symm
      cases hwording with
      | directory hother => cases hdirectory.symm.trans hother; rfl
      | complaint hobstacle =>
        cases hobstacle with
        | gone hgone => cases hdirectory.symm.trans hgone
    · next error hgone =>
      rw [Outcome.complain_isError_iff]
      refine (exists_wording_iff (.complaint (.gone hgone)) fun text hwording => ?_).symm
      cases hwording with
      | directory hother => cases hgone.symm.trans hother
      | complaint hobstacle =>
        cases hobstacle with
        | gone hother => cases hgone.symm.trans hother; rfl
  | type => rw [perform, Host.isError_map_iff, describeAll_isError_iff]

/-- What cannot be said is no answer of the operating system. -/
theorem Builtin.isAnswer_of_perform {b : Builtin} (hcd : b ≠ .cd) {args : List Text}
    (h : b.perform host directories args = .error failure) : failure.isAnswer = false := by
  cases b with
  | cd => exact absurd rfl hcd
  | exit => cases h
  | echo => exact Text.isAnswer_of_encode (Host.map_eq_error (Host.map_eq_error h))
  | pwd =>
    have htell := Host.map_eq_error h
    rw [tellDirectory] at htell
    split at htell
    · exact Text.isAnswer_of_encode (Host.map_eq_error htell)
    · exact Text.isAnswer_of_encode (Host.map_eq_error htell)
  | type =>
    rcases Host.bind_eq_error (Host.map_eq_error h) with htold | ⟨_, -, h⟩
    · exact Text.isAnswer_of_encode htold
    rcases Host.bind_eq_error h with hcomplained | ⟨_, -, h⟩
    · exact Text.isAnswer_of_encode hcomplained
    · cases h

/-- A command that fails has met no answer of the operating system, and has changed nothing. -/
theorem Execution.eq_error (h : Execution host directories command (.error failure) after) :
    failure.isAnswer = false ∧ after = host := by
  generalize hresult : (.error failure : Except Failure Outcome) = result at h
  cases h with
  | told hcd hperform =>
    rw [← hresult] at hperform
    exact ⟨Builtin.isAnswer_of_perform hcd hperform, rfl⟩
  | moved => cases hresult
  | notMoved | notFound | notStarted =>
    exact ⟨Text.isAnswer_of_encode (Host.map_eq_error hresult.symm), rfl⟩
  | directoryUnasked htext =>
    cases hresult
    exact ⟨Text.isAnswer_of_toSystem htext, rfl⟩
  | ended => cases hresult
  | programUnasked _ hunasked =>
    cases hresult
    exact ⟨hunasked, rfl⟩

/-- A program that was found is not even asked for exactly if an argument cannot be given to the
operating system: its path was given already, and the name is the end of the path. -/
theorem Host.start_unasked_iff_of_found {name path : Text} {args : List Text}
    (hfind : host.findProgram directories name = some path) :
    (∃ failure, host.start path (name :: args) = .error failure ∧ failure.isAnswer = false) ↔
      ∃ arg ∈ args, ¬ arg.Askable := by
  obtain ⟨hexec, hsuffix⟩ := Host.findProgram_eq_some hfind
  have hpath := Host.askable_of_isExecutable hexec
  have hname := hpath.suffix hsuffix
  rw [Host.start_eq_unasked_iff]
  constructor
  · rintro (hunfit | ⟨arg, harg, hunfit⟩)
    · exact absurd hpath hunfit
    · rcases List.mem_cons.mp harg with rfl | harg
      · exact absurd hname hunfit
      · exact ⟨arg, harg, hunfit⟩
  · rintro ⟨arg, harg, hunfit⟩
    exact .inr ⟨arg, List.mem_cons_of_mem name harg, hunfit⟩

/-- What a command meets is an answer of the operating system. -/
theorem Obstacle.askable {words : List Text}
    (h : Obstacle host directories command message code)
    (hwords : Command.ofWords? host directories words = some command) :
    ¬ command.Unaskable host := by
  cases h with
  | unknown | gone | undescribed => exact id
  | start hstart hanswer =>
    obtain ⟨-, -, hfind⟩ := Command.ofWords?_eq_external hwords
    intro hunfit
    obtain ⟨failure, hstart', hunasked⟩ := (Host.start_unasked_iff_of_found hfind).mpr hunfit
    cases hstart.symm.trans hstart'
    cases hanswer.symm.trans hunasked
  | directory hfailure hanswer =>
    intro hunfit
    obtain ⟨failure, htext⟩ := Text.not_askable_iff.mp hunfit
    have hunasked := Text.isAnswer_of_toSystem htext
    cases hfailure.symm.trans ((Host.changeDirectory_eq_error_iff hunasked).mpr htext)
    cases hanswer.symm.trans hunasked

/-- A command whose only wording is a complaint fails exactly if the complaint cannot be shown. -/
theorem Command.breaks_iff_of_obstacle {words : List Text}
    (hwords : Command.ofWords? host directories words = some command)
    (h : Obstacle host directories command message code)
    (honly : ∀ text, Wording host directories command text → text = message) :
    command.Breaks host directories ↔ ¬ message.Showable := by
  rw [Command.Breaks, exists_wording_iff (.complaint h) honly]
  exact or_iff_right (h.askable hwords)

/-- A directory that was gone to could be asked for, and nothing is said of it. -/
theorem Command.not_breaks_of_moved {args : List Text} {moved : Host}
    (h : host.changeDirectory (Builtin.destination host args) = .ok moved) :
    ¬ (Command.builtin .cd args).Breaks host directories := by
  rintro (hunfit | ⟨text, hwording, -⟩)
  · obtain ⟨failure, htext⟩ := Text.not_askable_iff.mp hunfit
    have hunasked := Text.isAnswer_of_toSystem htext
    cases h.symm.trans ((Host.changeDirectory_eq_error_iff hunasked).mpr htext)
  · cases hwording with
    | complaint hobstacle =>
      cases hobstacle with
      | directory hfailure => cases h.symm.trans hfailure

/-- A program that has ended could be started, and nothing is said of it. -/
theorem Command.not_breaks_of_ended {name path : Text} {args : List Text}
    {ended : Host.ProgramResult × Host} (hfind : host.findProgram directories name = some path)
    (h : host.start path (name :: args) = .ok ended) :
    ¬ (Command.external name path args).Breaks host directories := by
  rintro (hunfit | ⟨text, hwording, -⟩)
  · obtain ⟨failure, hstart, -⟩ := (Host.start_unasked_iff_of_found hfind).mpr hunfit
    cases h.symm.trans hstart
  · cases hwording with
    | complaint hobstacle =>
      cases hobstacle with
      | start hstart => cases h.symm.trans hstart

/-- A command fails exactly if it would ask with a text that cannot be given to the operating
system, or has to say one that cannot be shown. -/
theorem Execution.isError_iff {words : List Text}
    (h : Execution host directories command result after)
    (hwords : Command.ofWords? host directories words = some command) :
    (∃ failure, result = .error failure) ↔ command.Breaks host directories := by
  cases h with
  | @told b args _ hcd hperform =>
    rw [Builtin.tells_isError_iff hcd hperform, Command.Breaks]
    -- Of the builtins only `cd` asks the operating system for anything.
    have hasks : ¬ (Command.builtin b args).Unaskable host := by
      cases b with
      | cd => exact absurd rfl hcd
      | echo | exit | pwd | type => exact id
    exact (or_iff_right hasks).symm
  | moved hmoved => exact iff_of_false (by simp) (Command.not_breaks_of_moved hmoved)
  | notMoved hfailure hanswer =>
    rw [Outcome.complain_isError_iff]
    -- The only thing to say is the complaint, here and where nothing is found or started.
    refine (Command.breaks_iff_of_obstacle hwords (.directory hfailure hanswer) ?_).symm
    intro text hwording
    cases hwording with
    | complaint hobstacle => cases hobstacle; rfl
  | directoryUnasked htext =>
    exact iff_of_true ⟨_, rfl⟩ (.inl (Text.not_askable_iff.mpr ⟨_, htext⟩))
  | notFound =>
    rw [Outcome.complain_isError_iff]
    refine (Command.breaks_iff_of_obstacle hwords (.unknown _ _) ?_).symm
    intro text hwording
    cases hwording with
    | complaint hobstacle => cases hobstacle; rfl
  | ended hstart _ =>
    obtain ⟨-, -, hfind⟩ := Command.ofWords?_eq_external hwords
    exact iff_of_false (by simp) (Command.not_breaks_of_ended hfind hstart)
  | notStarted hstart hanswer =>
    rw [startReport, Host.isError_map_iff, ← Text.not_showable_iff]
    refine (Command.breaks_iff_of_obstacle hwords (.start hstart hanswer) ?_).symm
    intro text hwording
    cases hwording with
    | complaint hobstacle =>
      cases hobstacle with
      | start hstart' => cases hstart.symm.trans hstart'; rfl
  | programUnasked hstart hunasked =>
    obtain ⟨-, -, hfind⟩ := Command.ofWords?_eq_external hwords
    exact iff_of_true ⟨_, rfl⟩
      (.inl ((Host.start_unasked_iff_of_found hfind).mp ⟨_, hstart, hunasked⟩))

theorem Failure.exitCode_ne_zero (failure : Failure) : failure.exitCode ≠ 0 := by
  unfold exitCode
  split <;> decide

/-- The bytes of the text are a part of the data. -/
def Text.ShownIn (t : Text) (data : Bytes) : Prop := ∃ bytes, t.encode = .ok bytes ∧ bytes <:+: data

theorem Text.shownIn_self {data : Bytes} {t : Text} (h : t.encode = .ok data) : t.ShownIn data :=
  ⟨data, h, List.infix_rfl⟩

/-- A complaint that is left shows its text and carries its exit code. -/
theorem Outcome.eq_of_complain {t : Text} {outcome : Outcome}
    (h : Outcome.complain t code = .ok outcome) :
    t.ShownIn outcome.stderr ∧ outcome.exitCode = code := by
  obtain ⟨data, hdata, rfl⟩ := Host.map_eq_ok h
  exact ⟨Text.shownIn_self hdata, rfl⟩

theorem Text.shownIn_of_flatten {lines : List Text} {line : Text} {data : Bytes}
    (hline : line ∈ lines) (h : Text.encode lines.flatten = .ok data) : line.ShownIn data := by
  obtain ⟨before, behind, heq⟩ := List.infix_of_mem_flatten hline
  rw [← heq] at h
  obtain ⟨first, last, hfirst, -, rfl⟩ := Text.encode_append_eq_ok_iff.mp h
  obtain ⟨front, bytes, -, hbytes, rfl⟩ := Text.encode_append_eq_ok_iff.mp hfirst
  exact ⟨bytes, hbytes, front, last, rfl⟩

/-- A command that meets an obstacle and does not fail tells of it on the error stream, with an exit
code that is not 0. -/
theorem Obstacle.reported {outcome : Outcome}
    (h : Obstacle host directories command message code)
    (hexecution : Execution host directories command (.ok outcome) after) :
    message.ShownIn outcome.stderr ∧ outcome.exitCode = code ∧ code ≠ 0 := by
  -- An obstacle is met in one kind of execution only; the others contradict it.
  generalize hresult : (.ok outcome : Except Failure Outcome) = result at hexecution
  cases h with
  | unknown name args =>
    cases hexecution with
    | notFound =>
      obtain ⟨hshows, hcode⟩ := Outcome.eq_of_complain hresult.symm
      exact ⟨hshows, hcode, by decide⟩
  | start hstart hanswer =>
    cases hexecution with
    | ended hstart' => cases hstart.symm.trans hstart'
    | notStarted hstart' =>
      cases hstart.symm.trans hstart'
      obtain ⟨data, hdata, rfl⟩ := Host.map_eq_ok hresult.symm
      exact ⟨Text.shownIn_self hdata, rfl, Failure.exitCode_ne_zero _⟩
    | programUnasked => cases hresult
  | directory hfailure hanswer =>
    cases hexecution with
    | told hcd => exact absurd rfl hcd
    | moved hmoved => cases hfailure.symm.trans hmoved
    | notMoved =>
      obtain ⟨hshows, hcode⟩ := Outcome.eq_of_complain hresult.symm
      exact ⟨hshows, hcode, by decide⟩
    | directoryUnasked => cases hresult
  | gone hgone =>
    cases hexecution with
    | told _ hperform =>
      rw [← hresult, Builtin.perform, Builtin.tellDirectory, hgone] at hperform
      obtain ⟨_, hcomplain, heq⟩ := Host.map_eq_ok hperform
      cases heq
      obtain ⟨hshows, hcode⟩ := Outcome.eq_of_complain hcomplain
      exact ⟨hshows, hcode, by decide⟩
  | undescribed hname hbuiltin hfind =>
    cases hexecution with
    | told _ hperform =>
      rw [← hresult, Builtin.perform] at hperform
      obtain ⟨_, hdescribe, heq⟩ := Host.map_eq_ok hperform
      cases heq
      obtain ⟨stdout, stderr, -, hstderr, rfl⟩ := Builtin.describeAll_eq_ok_iff.mp hdescribe
      have hline := Builtin.mem_complained_iff.mpr
        ⟨_, hname, Builtin.describe_eq_inr hbuiltin hfind⟩
      refine ⟨Text.shownIn_of_flatten hline hstderr, ?_, by decide⟩
      have hne := List.ne_nil_of_mem hline
      simpa using hne

end

end LineShell
