import LineShell.Shell
import LineShell.Proofs.Command.Execution
import LineShell.Proofs.Delivery
import LineShell.Proofs.Line.Trim

/-!
# Answers

A shell reads a line without the blanks at its ends: `answer_eq_respond`.  That is the same as
reading the whole line unless a blank is lost that a backslash takes: `answer_reads_line`.  A shell
has a reply to every line unless its command would ask or say something that cannot be put into
bytes, and a reply tells of everything that has gone wrong: `answer_replies`.
-/

namespace LineShell

open Grammar (Gap)

namespace Shell

def respond (shell : Shell) (m : Machine) :
    Except LineError Instruction → Except Failure Reply × Machine
  | .error e => (Reply.ofLineError e, m)
  | .ok instruction => shell.carryOut m instruction

/-- The command that a line asks for, if it can be read and has words. -/
def commandIn? (shell : Shell) (host : Host) (line : Text) : Option Command :=
  match Instruction.ofLine shell.modes (Text.trim line) with
  | .error _ => none
  | .ok instruction =>
    Command.ofWords? host (shell.searchPath.directories host.env) instruction.words

/-- The command in the line would ask or say something that cannot be put into bytes. -/
def Breaks (shell : Shell) (host : Host) (line : Text) : Prop :=
  ∃ command ∈ shell.commandIn? host line,
    command.Breaks host (shell.searchPath.directories host.env)

/-- A command that fails takes the reply with it. -/
theorem carryOut_of_command {shell : Shell} {m : Machine} {instruction : Instruction}
    {command : Command}
    (h : Command.ofWords? m.toHost (shell.searchPath.directories m.env) instruction.words =
      some command) :
    shell.carryOut m instruction =
      ((m.execute (shell.searchPath.directories m.env) command).1.map
          (Reply.ofOutcome instruction.redirection command),
        (m.execute (shell.searchPath.directories m.env) command).2) := by
  simp only [carryOut, h]
  rcases m.execute (shell.searchPath.directories m.env) command with ⟨failure | outcome, after⟩
  · rfl
  · rfl

theorem ofLine_nil (modes : Modes) :
    Instruction.ofLine modes [] = .ok { words := [], redirection := none } := by
  rcases modes with ⟨_ | _, _ | _⟩ <;> rfl

/-- A blank line needs no case of its own: it is read as an instruction without words. -/
theorem answer_eq_respond (shell : Shell) (m : Machine) (line : Text) :
    shell.answer m line =
      shell.respond m (Instruction.ofLine shell.modes (Text.trim line)) := by
  unfold answer
  dsimp only
  split
  · next hblank =>
    rw [hblank, ofLine_nil]
    rfl
  · cases Instruction.ofLine shell.modes (Text.trim line) <;> rfl

/-! ## Lines that are read without their blanks -/

/-- A line that ends outside quotes is answered as the line without the blanks at its ends, and that
is the line itself unless it loses a blank.  Then its last backslash is lost too. -/
theorem answer_reads_line (shell : Shell) {line : Text}
    (hquote : (endMode line).openQuote = none) :
    (∀ m, shell.answer m line =
        shell.respond m (Instruction.ofLine shell.modes (Text.trim line))) ∧
      (Instruction.ofLine shell.modes (Text.trim line) = Instruction.ofLine shell.modes line ↔
        ¬ LosesBlank shell.modes line) ∧
      (LosesBlank shell.modes line → ∃ u b g, line = u ++ .char '\\' :: b :: g ∧ isBlank b = true ∧
        Gap g ∧ Instruction.ofLine shell.modes (Text.trim line) =
          Instruction.ofLine shell.modes u) :=
  ⟨fun m => shell.answer_eq_respond m line, ofLine_trim_eq_iff shell.modes hquote,
    ofLine_trim_of_losesBlank⟩

/-- A backslash that is itself taken by a backslash takes no blank. -/
theorem answer_reads_line_of_backslashes :
    (endMode "echo a\\\\ ".toText).openQuote = none ∧
      Instruction.ofLine {} (Text.trim "echo a\\\\ ".toText) =
        Instruction.ofLine {} "echo a\\\\ ".toText ∧
      Instruction.ofLine {} "echo a\\\\ ".toText =
        .ok { words := ["echo".toText, "a\\".toText], redirection := none } :=
  ⟨rfl, (answer_reads_line {} rfl).2.1.mpr (by decide), rfl⟩

/-- The blank is lost in the last argument, and in the target of a redirection. -/
theorem answer_loses_blank :
    (answer {} { tree := .root, directory := [], env := [] } "echo a\\ ".toText).1 =
        .ok { stdout := "a\n".toBytes } ∧
      (respond {} { tree := .root, directory := [], env := [] }
          (Instruction.ofLine {} "echo a\\ ".toText)).1 =
        .ok { stdout := "a \n".toBytes } ∧
      Instruction.ofLine { quoteAware := true } (Text.trim "> f\\ ".toText) =
        .ok { words := [], redirection :=
          some { stream := .stdout, mode := .truncate, path := "f".toText } } ∧
      Instruction.ofLine { quoteAware := true } "> f\\ ".toText =
        .ok { words := [], redirection :=
          some { stream := .stdout, mode := .truncate, path := "f ".toText } } :=
  ⟨rfl, rfl, rfl, rfl⟩

/-! ## Replies -/

/-- Why a line cannot be read can always be told. -/
theorem ofLineError_eq_ok (e : LineError) : ∃ stderr, Reply.ofLineError e =
      .ok { stderr, exitCode := unreadableStatus } ∧ stderr ≠ [] ∧
    (diagnostic (.ofChars e.message)).encode = .ok stderr := by
  obtain ⟨stderr, hstderr⟩ := showable_diagnostic_iff.mpr (Text.showable_ofChars e.message)
  exact ⟨stderr, by rw [Reply.ofLineError, hstderr]; rfl, encode_diagnostic_ne_nil hstderr, hstderr⟩

/-- The line can be read, and asks for words and a redirection. -/
def Asks (shell : Shell) (line : Text) (words : List Text) (redirection : Option Redirection) :
    Prop :=
  Instruction.ofLine shell.modes (Text.trim line) = .ok { words, redirection }

/-- A builtin is found by its name, whatever the search path holds. -/
theorem answer_builtin {shell : Shell} {line : Text} {b : Builtin} {args : List Text}
    {redirection : Option Redirection} (h : shell.Asks line (b.name :: args) redirection)
    (m : Machine) :
    shell.answer m line =
      ((m.execute (shell.searchPath.directories m.env) (.builtin b args)).1.map
          (Reply.ofOutcome redirection (.builtin b args)),
        (m.execute (shell.searchPath.directories m.env) (.builtin b args)).2) := by
  rw [answer_eq_respond, h]
  exact carryOut_of_command (Command.ofWords?_builtin _ _ b args)

/-- Every way in which a line is answered on a host. -/
inductive Answered (shell : Shell) (host : Host) (line : Text) :
    Except Failure Reply → Host → Prop
  | unreadable {e : LineError} {stderr : Bytes} :
      Instruction.ofLine shell.modes (Text.trim line) = .error e →
      (diagnostic (.ofChars e.message)).encode = .ok stderr →
      Answered shell host line (.ok { stderr, exitCode := unreadableStatus }) host
  | idle {redirection : Option Redirection} : shell.Asks line [] redirection →
      Answered shell host line (.ok { redirection }) host
  | carriedOut {words : List Text} {redirection : Option Redirection} {command : Command}
      {outcome : Outcome} {after : Host} : shell.Asks line words redirection →
      Command.ofWords? host (shell.searchPath.directories host.env) words = some command →
      Execution host (shell.searchPath.directories host.env) command (.ok outcome) after →
      Answered shell host line (.ok (.ofOutcome redirection command outcome)) after
  | failed {words : List Text} {redirection : Option Redirection} {command : Command}
      {failure : Failure} {after : Host} : shell.Asks line words redirection →
      Command.ofWords? host (shell.searchPath.directories host.env) words = some command →
      Execution host (shell.searchPath.directories host.env) command (.error failure) after →
      Answered shell host line (.error failure) after

section

variable {shell : Shell} {host after : Host} {line : Text} {result : Except Failure Reply}

theorem commandIn?_of_asks {words : List Text} {redirection : Option Redirection}
    (h : shell.Asks line words redirection) (host : Host) :
    shell.commandIn? host line =
      Command.ofWords? host (shell.searchPath.directories host.env) words := by
  rw [commandIn?, h]

theorem answer_answered (shell : Shell) (m : Machine) (line : Text) :
    Answered shell m.toHost line (shell.answer m line).1 (shell.answer m line).2.toHost ∧
      (shell.answer m line).2.terminal = m.terminal := by
  rw [answer_eq_respond]
  rcases hread : Instruction.ofLine shell.modes (Text.trim line) with e | ⟨words, redirection⟩
  · obtain ⟨stderr, hreply, -, hencode⟩ := ofLineError_eq_ok e
    rw [respond, hreply]
    exact ⟨.unreadable hread hencode, rfl⟩
  cases words with
  | nil => exact ⟨.idle hread, rfl⟩
  | cons name args =>
    rcases Command.exists_ofWords?_cons m.toHost (shell.searchPath.directories m.env) name args
      with ⟨command, hcommand⟩
    rcases m.execute_execution (shell.searchPath.directories m.env) command with
      ⟨hexecution, hterminal⟩
    rw [respond, carryOut_of_command hcommand]
    generalize m.execute (shell.searchPath.directories m.env) command = done
      at hexecution hterminal ⊢
    rcases done with ⟨failure | outcome, done⟩
    · exact ⟨.failed hread hcommand hexecution, hterminal⟩
    · exact ⟨.carriedOut hread hcommand hexecution, hterminal⟩

theorem Answered.isError_iff (h : Answered shell host line result after) :
    (∃ failure, result = .error failure) ↔ shell.Breaks host line := by
  cases h with
  | unreadable hread _ => simp [Breaks, commandIn?, hread]
  | idle hasks => simp [Breaks, commandIn?_of_asks hasks, Command.ofWords?]
  | carriedOut hasks hcommand hexecution =>
    rw [Breaks, commandIn?_of_asks hasks, hcommand]
    simpa using hexecution.isError_iff hcommand
  | failed hasks hcommand hexecution =>
    rw [Breaks, commandIn?_of_asks hasks, hcommand]
    simpa using hexecution.isError_iff hcommand

theorem Answered.eq_error {failure : Failure}
    (h : Answered shell host line (.error failure) after) :
    failure.isAnswer = false ∧ after = host := by
  cases h with
  | failed _ _ hexecution => exact hexecution.eq_error

theorem Answered.of_obstacle {command : Command} {message : Text} {code : Int}
    (h : Answered shell host line result after)
    (hcommand : shell.commandIn? host line = some command)
    (hobstacle : Obstacle host (shell.searchPath.directories host.env) command message code) :
    ¬ command.Unaskable host ∧ ∀ reply, result = .ok reply →
      message.ShownIn reply.stderr ∧ reply.exitCode = code ∧ code ≠ 0 := by
  cases h with
  | unreadable hread => simp [commandIn?, hread] at hcommand
  | idle hasks => simp [commandIn?_of_asks hasks, Command.ofWords?] at hcommand
  | carriedOut hasks hwords hexecution =>
    rw [commandIn?_of_asks hasks, hwords] at hcommand
    cases hcommand
    refine ⟨hobstacle.askable hwords, fun reply hreply => ?_⟩
    cases hreply
    exact hobstacle.reported hexecution
  | failed hasks hwords hexecution =>
    rw [commandIn?_of_asks hasks, hwords] at hcommand
    cases hcommand
    exact ⟨hobstacle.askable hwords, fun reply hreply => by cases hreply⟩

end

/-- A shell has a reply to a line unless the command breaks, and then nothing has happened.  What
goes wrong with reading, finding, starting or changing the directory is told of in the reply, with
an exit code that is not 0. -/
theorem answer_replies (shell : Shell) (m : Machine) (line : Text) :
    ((∃ reply, (shell.answer m line).1 = .ok reply) ↔ ¬ shell.Breaks m.toHost line) ∧
      (∀ failure, (shell.answer m line).1 = .error failure → failure.isAnswer = false ∧
        (shell.answer m line).2.toHost = m.toHost ∧
        (shell.answer m line).2.terminal = m.terminal) ∧
      (∀ e, Instruction.ofLine shell.modes (Text.trim line) = .error e →
        ∃ reply, (shell.answer m line).1 = .ok reply ∧
          (diagnostic (.ofChars e.message)).encode = .ok reply.stderr ∧
          reply.stderr ≠ [] ∧ reply.exitCode ≠ 0) ∧
      ∀ command message code, shell.commandIn? m.toHost line = some command →
        Obstacle m.toHost (shell.searchPath.directories m.env) command message code →
        ¬ command.Unaskable m.toHost ∧ ∀ reply, (shell.answer m line).1 = .ok reply →
          message.ShownIn reply.stderr ∧ reply.exitCode = code ∧ code ≠ 0 := by
  obtain ⟨hanswered, hterminal⟩ := shell.answer_answered m line
  refine ⟨?_, ?_, ?_, fun command message code => hanswered.of_obstacle⟩
  · rw [← hanswered.isError_iff]
    cases (shell.answer m line).1 <;> simp
  · intro failure hfailure
    rw [hfailure] at hanswered
    exact ⟨hanswered.eq_error.1, hanswered.eq_error.2, hterminal⟩
  · intro e he
    obtain ⟨stderr, hreply, hne, hencode⟩ := ofLineError_eq_ok e
    -- The diagnostic of a line error holds characters only, so it can be shown.
    rw [answer_eq_respond, he, respond]
    exact ⟨_, hreply, hencode, hne, by simp [unreadableStatus]⟩

/-- There is no reply to `cd` with NUL, nor to a program that is found and given NUL; a name that
holds NUL is only not found, and there is no reply to one that holds a byte of no character. -/
theorem answer_fails_at_nul :
    (answer {} { tree := .root, directory := [], env := [] } ("cd a".toText ++ [.char nul])).1 =
        .error .embeddedNul ∧
      (answer { searchPath := .fixed ["/".toText] }
          { tree := FileTree.root.putFile ["p".toBytes]
              { mode := 0o755, data := [], program := some (.completes [] [] 0) }
            directory := [], env := [] } ("p a".toText ++ [.char nul])).1 = .error .embeddedNul ∧
      (answer {} { tree := .root, directory := [], env := [] } ("a".toText ++ [.char nul])).1 =
        .ok { stderr := "a".toBytes ++ 0 :: ": command not found\n".toBytes
              exitCode := 127 } ∧
      (answer {} { tree := .root, directory := [], env := [] } [.ofByte 0xFF]).1 =
        .error (.unencodable { first := 0x4FF, start := 0, stop := 1 }) :=
  ⟨rfl, rfl, rfl, rfl⟩

end Shell

end LineShell
