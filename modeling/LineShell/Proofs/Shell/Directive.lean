import LineShell.Proofs.Shell.Confinement

/-!
# The redirection of a reply

A line asks for a redirection before anything is known of its command, and a reply sends its output
there, a diagnostic too.  The exception is a line that strict reading refuses: the reply forgets
what the line asked for, and that happens where a `>` is found that stands behind an open quote.
Under quote-aware reading there is no such `>`.  Main statement: `reply_follows_directive`.
-/

namespace LineShell

namespace Shell

def directive (shell : Shell) (line : Text) : Option Redirection :=
  (cutRedirection shell.modes.quoteAware (Text.trim line)).2

def commandText (shell : Shell) (line : Text) : Text :=
  (cutRedirection shell.modes.quoteAware (Text.trim line)).1

/-- The line asks for a redirection, but strict reading refuses its command. -/
structure LosesDirective (shell : Shell) (line : Text) : Prop where
  strict : shell.modes.strict = true
  quoteAware : shell.modes.quoteAware = false
  arrow : .char '>' ∈ Text.trim line
  openQuote : (endMode (shell.commandText line)).openQuote ≠ none

section

variable {shell : Shell} {line : Text} {host done : Host} {reply : Reply} {r : Redirection}

/-! ## What a line asks for -/

/-- Reading a line is reading its command; the directive comes with it. -/
theorem ofLine_trim (shell : Shell) (line : Text) :
    Instruction.ofLine shell.modes (Text.trim line) =
      (readWords shell.modes.strict (shell.commandText line)).map
        ({ words := ·, redirection := shell.directive line }) := by
  rw [Instruction.ofLine, commandText, directive]
  rcases cutRedirection shell.modes.quoteAware (Text.trim line) with ⟨command, redirection⟩
  dsimp only
  cases readWords shell.modes.strict command <;> rfl

theorem Asks.directive_eq {words : List Text} {redirection : Option Redirection}
    (h : shell.Asks line words redirection) : redirection = shell.directive line := by
  rw [Asks, ofLine_trim] at h
  cases hread : readWords shell.modes.strict (shell.commandText line) with
  | error e =>
    rw [hread] at h
    cases h
  | ok words' =>
    rw [hread] at h
    cases h
    rfl

theorem ofLine_trim_eq_error_iff {quote : Quote} :
    Instruction.ofLine shell.modes (Text.trim line) = .error (.unterminated quote) ↔
      shell.modes.strict = true ∧ (endMode (shell.commandText line)).openQuote = some quote := by
  rw [ofLine_trim]
  cases shell.modes.strict with
  | false => simp [Except.map]
  | true =>
    rw [← readWords_true_eq_error_iff]
    cases readWords true (shell.commandText line) <;> simp [Except.map]

theorem directive_ne_none_iff :
    shell.directive line ≠ none ↔ Redirects shell.modes.quoteAware (Text.trim line) := by
  rw [directive]
  rcases cutRedirection_cases shell.modes.quoteAware (Text.trim line) with
    ⟨hno, hcut⟩ | ⟨hredirects, op, -, command, rest, -, hcut⟩
  · simp [hcut, hno]
  · simp [hcut, hredirects]

/-- Quote-aware reading finds no operator behind an open quote. -/
theorem openQuote_commandText_of_quoteAware (haware : shell.modes.quoteAware = true)
    (h : shell.directive line ≠ none) : (endMode (shell.commandText line)).openQuote = none := by
  rw [directive_ne_none_iff, haware] at h
  rcases cutRedirection_cases true (Text.trim line) with
    ⟨hno, -⟩ | ⟨-, op, hop, command, rest, hsplit, hcut⟩
  · exact absurd h hno
  · rw [commandText, haware, hcut, (Operator.endMode_of_split hop hsplit).2.1, ScanMode.openQuote]

theorem losesDirective_iff : shell.LosesDirective line ↔
    shell.directive line ≠ none ∧
      ∃ quote, Instruction.ofLine shell.modes (Text.trim line) = .error (.unterminated quote) := by
  simp only [ofLine_trim_eq_error_iff, exists_and_left, ← Option.ne_none_iff_exists']
  constructor
  · intro h
    refine ⟨?_, h.strict, h.openQuote⟩
    rw [directive_ne_none_iff, h.quoteAware, redirects_false_iff]
    exact h.arrow
  · rintro ⟨hdirective, hstrict, hquote⟩
    have hraw : shell.modes.quoteAware = false := by
      by_contra haware
      rw [Bool.not_eq_false] at haware
      exact hquote (openQuote_commandText_of_quoteAware haware hdirective)
    refine ⟨hstrict, hraw, ?_, hquote⟩
    rw [directive_ne_none_iff, hraw, redirects_false_iff] at hdirective
    exact hdirective

theorem Asks.not_losesDirective {words : List Text} {redirection : Option Redirection}
    (h : shell.Asks line words redirection) : ¬ shell.LosesDirective line := by
  rw [losesDirective_iff]
  rintro ⟨-, quote, herror⟩
  cases herror.symm.trans h

/-! ## What a reply sends where -/

/-- A reply follows the directive unless the line loses it. -/
theorem Answered.redirection_eq_iff (h : Answered shell host line (.ok reply) done) :
    reply.redirection = shell.directive line ↔ ¬ shell.LosesDirective line := by
  cases h with
  | @unreadable e stderr hread =>
    obtain ⟨quote⟩ := e
    show none = shell.directive line ↔ _
    rw [losesDirective_iff, hread]
    simp [eq_comm]
  | idle hasks => exact iff_of_true hasks.directive_eq hasks.not_losesDirective
  | carriedOut hasks => exact iff_of_true hasks.directive_eq hasks.not_losesDirective

theorem runLine_of_losesDirective (s : Session) (h : shell.LosesDirective line) :
    ∃ quote stderr, (endMode (shell.commandText line)).openQuote = some quote ∧
      (diagnostic (.ofChars (LineError.unterminated quote).message)).encode = .ok stderr ∧
      (shell.runLine s line).1 = .ok { stderr, exitCode := unreadableStatus } ∧
      (shell.runLine s line).2.machine.toHost = s.machine.toHost ∧
      s.machine.Shows [(.stderr, withNewline stderr)] (shell.runLine s line).2.machine := by
  obtain ⟨-, quote, herror⟩ := losesDirective_iff.mp h
  obtain ⟨stderr, hreply, -, hencode⟩ := ofLineError_eq_ok (.unterminated quote)
  have hanswer : shell.answer s.machine line =
      (.ok { stderr, exitCode := unreadableStatus }, s.machine) := by
    rw [answer_eq_respond, herror, respond, hreply]
  refine ⟨quote, stderr, (ofLine_trim_eq_error_iff.mp herror).2, hencode, ?_⟩
  obtain ⟨hmachine, hresult⟩ := runLine_of_answer hanswer
  rw [s.machine.deliver_stderr stderr] at hmachine hresult
  refine ⟨hresult.1, ?_, ?_⟩
  · rw [hmachine]
    rfl
  · rw [hmachine]
    exact Machine.shows_print _ _ _

/-- An error buffer that goes to a file that can be written shows nothing on the terminal. -/
theorem runLine_stderr_to_file {s : Session}
    (h : (shell.answer s.machine line).1 = .ok reply) (hr : reply.redirection = some r)
    (hstream : r.stream = .stderr)
    (hwritable : Host.Writable (shell.answer s.machine line).2.toHost r.path
      (withNewline reply.stderr)) :
    (shell.runLine s line).1 = .ok reply ∧
      Host.Writing (shell.answer s.machine line).2.toHost r.mode r.path (withNewline reply.stderr)
        none (shell.runLine s line).2.machine.toHost ∧
      s.machine.Shows [(.stdout, withNewline reply.stdout)] (shell.runLine s line).2.machine := by
  have hterminal := (shell.answer_answered s.machine line).2
  rcases hanswer : shell.answer s.machine line with ⟨result, m⟩
  rw [hanswer] at h hterminal hwritable
  cases h
  obtain ⟨hmachine, hresult⟩ := runLine_of_answer hanswer
  rw [hr] at hmachine hresult
  obtain ⟨failed, hwriting, hcomes⟩ := m.deliver_to_file reply.stdout reply.stderr r
  rw [Redirection.shown, hstream] at hcomes
  rw [hstream] at hwriting
  -- The file takes the buffer, so there is no complaint in front of the other one.
  obtain rfl : failed = none := hwriting.eq_none_iff.mpr hwritable
  obtain ⟨hnone, hshows⟩ := hcomes
  rw [hnone] at hresult
  rw [hmachine]
  exact ⟨hresult.1, hwriting, hshows.of_terminal hterminal⟩

end

/-- A reply has the redirection that its line asks for, whatever becomes of the command, unless
strict reading without regard to quotes has found a `>` and refuses the command in front of it.  So
an error buffer that a line sends to a file which can be written is all in the file, and the
terminal shows the output alone.  Where the redirection is lost nothing is written to any file, and
the diagnostic is shown. -/
theorem reply_follows_directive (shell : Shell) (line : Text) :
    (∀ m reply, (shell.answer m line).1 = .ok reply →
      (reply.redirection = shell.directive line ↔ ¬ shell.LosesDirective line)) ∧
    (∀ s reply r, (shell.answer s.machine line).1 = .ok reply → ¬ shell.LosesDirective line →
      shell.directive line = some r → r.stream = .stderr →
      Host.Writable (shell.answer s.machine line).2.toHost r.path (withNewline reply.stderr) →
      (shell.runLine s line).1 = .ok reply ∧
        Host.Writing (shell.answer s.machine line).2.toHost r.mode r.path
          (withNewline reply.stderr) none (shell.runLine s line).2.machine.toHost ∧
        s.machine.Shows [(.stdout, withNewline reply.stdout)]
          (shell.runLine s line).2.machine) ∧
    (shell.LosesDirective line → ∀ s, ∃ quote stderr,
      (endMode (shell.commandText line)).openQuote = some quote ∧
      (diagnostic (.ofChars (LineError.unterminated quote).message)).encode = .ok stderr ∧
      (shell.runLine s line).1 = .ok { stderr, exitCode := unreadableStatus } ∧
      (shell.runLine s line).2.machine.toHost = s.machine.toHost ∧
      s.machine.Shows [(.stderr, withNewline stderr)] (shell.runLine s line).2.machine) := by
  have hreply : ∀ m reply, (shell.answer m line).1 = .ok reply →
      (reply.redirection = shell.directive line ↔ ¬ shell.LosesDirective line) := by
    intro m reply hok
    have hanswered := (shell.answer_answered m line).1
    rw [hok] at hanswered
    exact hanswered.redirection_eq_iff
  refine ⟨hreply, ?_, fun hloses s => runLine_of_losesDirective s hloses⟩
  intro s reply r h hkept hdirective hstream hwritable
  -- The redirection is not lost, so it is that of the reply.
  have hr := (hreply s.machine reply h).mpr hkept
  exact runLine_stderr_to_file h (hr.trans hdirective) hstream hwritable

/-- A name that is not found is told of in the file, and the terminal shows nothing. -/
example :
    let s : Session := { machine := { tree := .root, directory := [], env := [] } }
    let after := (runLine {} s "nope 2> f".toText).2
    after.machine.terminal = s.machine.terminal ∧
      after.machine.tree.find? ["f".toBytes] = some
        { content := .file
            { mode := Host.newFileMode, data := "nope: command not found\n".toBytes } } :=
  ⟨rfl, rfl⟩

/-- The line asks for its errors to go to the file `f`; they are shown, and there is no such
file. -/
theorem refused_line_loses_directive :
    let shell : Shell := { modes := { strict := true } }
    let s : Session := { machine := { tree := .root, directory := [], env := [] } }
    let line := "\"a 2> f".toText
    let message := "myshell: unexpected EOF while looking for matching `\"'\n".toBytes
    shell.directive line = some { stream := .stderr, mode := .truncate, path := "f".toText } ∧
      (shell.answer s.machine line).1 = .ok { stderr := message, exitCode := 2 } ∧
      (shell.runLine s line).2.machine.toHost = s.machine.toHost ∧
      s.machine.Shows [(.stderr, message)] (shell.runLine s line).2.machine :=
  ⟨by decide, rfl, rfl, rfl⟩

end Shell

end LineShell
