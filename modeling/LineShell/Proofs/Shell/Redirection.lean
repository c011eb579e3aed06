import LineShell.Proofs.Line.Plain
import LineShell.Proofs.Shell.Confinement
import LineShell.Proofs.Shell.Launch

/-!
# Redirections do not change what is carried out

A redirection is written behind a command, and the command does not know of it: what is carried out,
what it leaves and the exit code are those of the command alone.  Main statement:
`redirection_changes_only_target`.  The exit code is recorded as well, except over a file that can
neither be written nor told of.
-/

namespace LineShell

/-- How the path of a redirection is written behind its operator.  Under quote-aware reading it
stands between single quotes; otherwise it stands as it is, and cannot be every path. -/
inductive WrittenTarget : Bool → Text → Text → Prop
  | quoted (path : Text) : WrittenTarget true path (quoteWord path)
  | asItIs {path : Text} : path ≠ [] → Text.trim path = path → .char '>' ∉ path →
      WrittenTarget false path path

namespace WrittenTarget

variable {quoteAware : Bool} {path target : Text}

/-- A written target holds no operator. -/
theorem not_redirects (h : WrittenTarget quoteAware path target) :
    ¬ Redirects quoteAware target := by
  cases h with
  | quoted => exact not_redirects_quoteWord path
  | asItIs _ _ harrow => exact not_redirects_of_not_mem false harrow

/-- Behind an operator a written target is read as the path it stands for. -/
theorem targetPath_eq (h : WrittenTarget quoteAware path target) :
    targetPath quoteAware (.char ' ' :: target) = path := by
  cases h with
  | quoted => exact targetPath_quoteWord path
  | asItIs _ htrim _ =>
    have hspace : Grammar.Gap [' '] := by simp [Grammar.Gap]; decide
    have htarget := Text.trim_gap_append hspace path
    rw [htrim] at htarget
    exact htarget

theorem ne_nil (h : WrittenTarget quoteAware path target) : target ≠ [] := by
  cases h with
  | quoted => simp [quoteWord]
  | asItIs hne _ _ => exact hne

theorem not_isBlank_of_getLast? (h : WrittenTarget quoteAware path target) {c : CodePoint}
    (hc : target.getLast? = some c) : isBlank c = false := by
  cases h with
  | quoted =>
    rw [quoteWord, ← List.cons_append, List.getLast?_concat, Option.some.injEq] at hc
    rw [← hc]
    decide
  | asItIs _ htrim _ =>
    rw [← htrim] at hc
    exact Text.not_isBlank_of_getLast?_trim hc

end WrittenTarget

def Reply.redirectedTo (r : Redirection) (reply : Reply) : Reply :=
  { reply with redirection := some r }

namespace Shell

variable {shell : Shell} {op : Operator} {command path target : Text}

/-- A command is carried out before anything looks at the redirection. -/
theorem carryOut_redirection (shell : Shell) (m : Machine) (words : List Text) (r : Redirection) :
    shell.carryOut m { words, redirection := some r } =
        ((shell.carryOut m { words, redirection := none }).1.map (Reply.redirectedTo r),
          (shell.carryOut m { words, redirection := none }).2) ∧
      ∀ reply, (shell.carryOut m { words, redirection := none }).1 = .ok reply →
        reply.redirection = none := by
  cases hcommand : Command.ofWords? m.toHost (shell.searchPath.directories m.env) words with
  | none =>
    simp only [carryOut, hcommand]
    refine ⟨rfl, ?_⟩
    rintro reply ⟨⟩
    rfl
  | some command =>
    rw [carryOut_of_command hcommand, carryOut_of_command hcommand]
    rcases m.execute (shell.searchPath.directories m.env) command with ⟨failure | outcome, after⟩
    · refine ⟨rfl, ?_⟩
      rintro reply ⟨⟩
    · refine ⟨rfl, ?_⟩
      rintro reply ⟨⟩
      rfl

theorem asks_of_endMode_eq_bare (htrim : Text.trim command = command)
    (hmode : endMode command = .bare) (hcommand : ¬ Redirects shell.modes.quoteAware command) :
    shell.Asks command (wordsOf command) none := by
  rw [Asks, htrim, ofLine_of_endMode_eq_bare shell.modes hmode hcommand]

/-- The redirection that was written is the one that the line asks for. -/
theorem asks_directive (hop : op ∈ Operator.table) (hmode : endMode command = .bare)
    (hcommand : ¬ Redirects shell.modes.quoteAware command)
    (htarget : WrittenTarget shell.modes.quoteAware path target) :
    shell.Asks (command ++ .char ' ' :: (op.spelling ++ .char ' ' :: target)) (wordsOf command)
      (some { stream := op.stream, mode := op.mode, path }) := by
  have hlast : ∀ c,
      (command ++ .char ' ' :: (op.spelling ++ .char ' ' :: target)).getLast? = some c →
      isBlank c = false := by
    intro c hc
    apply htarget.not_isBlank_of_getLast?
    rw [← hc]
    simp [List.getLast?_append, List.getLast?_cons, List.getLast?_eq_some_getLast htarget.ne_nil]
  rw [Asks, ofLine_trim_of_getLast? shell.modes hlast,
    ofLine_directive shell.modes hop hmode hcommand htarget.not_redirects, htarget.targetPath_eq]

/-- The command has a reply, and the file that is to take its output can neither be written nor told
of. -/
def Undelivered (shell : Shell) (m : Machine) (command : Text) (r : Redirection) : Prop :=
  ∃ reply after, shell.answer m command = (.ok reply, after) ∧
    ¬ Host.Writable after.toHost r.path (withNewline (r.stream.buffer reply.stdout reply.stderr)) ∧
    ¬ r.path.Showable

section

variable {s : Session} {line : Text} {r : Redirection}

/-- A redirected line that is delivered comes to what the command comes to alone. -/
theorem runLine_redirected
    (hline : ∀ m, shell.answer m line =
      ((shell.answer m command).1.map (Reply.redirectedTo r), (shell.answer m command).2))
    (hnone : ∀ reply, (shell.answer s.machine command).1 = .ok reply → reply.redirection = none)
    (h : ¬ shell.Undelivered s.machine command r) :
    (shell.runLine s line).1 = (shell.runLine s command).1.map (Reply.redirectedTo r) ∧
      (shell.runLine s line).2.status = (shell.runLine s command).2.status := by
  have hredirected := hline s.machine
  rcases hanswer : shell.answer s.machine command with ⟨failure | reply, after⟩
  · rw [hanswer] at hredirected
    obtain ⟨hresult, -, -, hstatus⟩ := runLine_unanswered (congrArg Prod.fst hanswer)
    obtain ⟨hresult', -, -, hstatus'⟩ := runLine_unanswered (congrArg Prod.fst hredirected)
    rw [hresult, hresult', hstatus, hstatus']
    exact ⟨rfl, rfl⟩
  · rw [hanswer] at hredirected hnone
    obtain ⟨-, hrun⟩ := runLine_of_answer hanswer
    rw [hnone reply rfl] at hrun
    obtain ⟨-, hrun'⟩ := runLine_of_answer hredirected
    -- This is the one use of the delivery: it does not break off.
    have hdelivered : (after.deliver reply.stdout reply.stderr (some r)).1 = none := by
      rw [Machine.deliver_eq_none_iff]
      by_contra hneither
      rw [not_or] at hneither
      exact h ⟨reply, after, hanswer, hneither.1, hneither.2⟩
    dsimp only [Reply.redirectedTo] at hrun'
    rw [hdelivered] at hrun'
    exact ⟨hrun'.1.trans (by rw [hrun.1]; rfl), hrun'.2.trans hrun.2.symm⟩

/-- A redirected line that is not delivered breaks off and records nothing. -/
theorem runLine_undelivered
    (hline : ∀ m, shell.answer m line =
      ((shell.answer m command).1.map (Reply.redirectedTo r), (shell.answer m command).2))
    (h : shell.Undelivered s.machine command r) :
    (∃ failure, (shell.runLine s line).1 = .error failure) ∧
      (shell.runLine s line).2.status = s.status := by
  obtain ⟨reply, after, hanswer, hwritable, hshowable⟩ := h
  have hredirected := hline s.machine
  rw [hanswer] at hredirected
  obtain ⟨-, hrun⟩ := runLine_of_answer hredirected
  dsimp only [Reply.redirectedTo] at hrun
  cases hdelivered : (after.deliver reply.stdout reply.stderr (some r)).1 with
  | none =>
    have hneither := not_or.mpr ⟨hwritable, hshowable⟩
    exact absurd (Machine.deliver_eq_none_iff.mp hdelivered) hneither
  | some failure =>
    rw [hdelivered] at hrun
    exact ⟨⟨failure, hrun.1⟩, hrun.2⟩

end

/-- A redirection behind a command that ends outside quotes and has none of its own changes where
the output goes, and nothing else: the machine that the command leaves is the same, and so is the
reply, or there is none for the same reason.  The status of the session is the same as well, whether
or not the file can be written, unless the file can neither be written nor told of.  Then the line
breaks off and the status stays what it was before. -/
theorem redirection_changes_only_target (shell : Shell) (hop : op ∈ Operator.table)
    (htrim : Text.trim command = command) (hmode : endMode command = .bare)
    (hcommand : ¬ Redirects shell.modes.quoteAware command)
    (htarget : WrittenTarget shell.modes.quoteAware path target) :
    let line := command ++ .char ' ' :: (op.spelling ++ .char ' ' :: target)
    let r : Redirection := { stream := op.stream, mode := op.mode, path }
    (∀ m, shell.answer m line =
        ((shell.answer m command).1.map (Reply.redirectedTo r), (shell.answer m command).2) ∧
      ∀ reply, (shell.answer m command).1 = .ok reply → reply.redirection = none) ∧
    ∀ s,
      (¬ shell.Undelivered s.machine command r →
        (shell.runLine s line).1 = (shell.runLine s command).1.map (Reply.redirectedTo r) ∧
          (shell.runLine s line).2.status = (shell.runLine s command).2.status) ∧
      (shell.Undelivered s.machine command r →
        (∃ failure, (shell.runLine s line).1 = .error failure) ∧
          (shell.runLine s line).2.status = s.status) := by
  intro line r
  have hanswer : ∀ m, shell.answer m line =
      ((shell.answer m command).1.map (Reply.redirectedTo r), (shell.answer m command).2) ∧
      ∀ reply, (shell.answer m command).1 = .ok reply → reply.redirection = none := by
    intro m
    -- Both lines ask for the same words, one of them with a redirection.
    rw [answer_of_asks (asks_directive hop hmode hcommand htarget),
      answer_of_asks (asks_of_endMode_eq_bare htrim hmode hcommand)]
    exact shell.carryOut_redirection m (wordsOf command) _
  have hline := fun m => (hanswer m).1
  exact ⟨hanswer,
    fun s => ⟨runLine_redirected hline (hanswer s.machine).2, runLine_undelivered hline⟩⟩

/-- The quoted arrow is no operator, the `2` in front of the operator is a word of the command, and
the path holds a quote. -/
theorem redirection_changes_only_target_of_quoted_arrow :
    let shell : Shell := { modes := { quoteAware := true, strict := true } }
    let op : Operator := { spelling := "2>>".toText, stream := .stderr, mode := .append }
    let command := "echo 'a > b' 2".toText
    let path := "it's".toText
    let line := "echo 'a > b' 2 2>> 'it'\\''s'".toText
    op ∈ Operator.table ∧ Text.trim command = command ∧ endMode command = .bare ∧
      ¬ Redirects true command ∧ WrittenTarget true path (quoteWord path) ∧
      (∀ m, shell.answer m line =
          ((shell.answer m command).1.map
              (Reply.redirectedTo { stream := .stderr, mode := .append, path }),
            (shell.answer m command).2) ∧
        ∀ reply, (shell.answer m command).1 = .ok reply → reply.redirection = none) ∧
      ∀ s, (shell.runLine s line).2.status = (shell.runLine s command).2.status := by
  intro shell op command path line
  have hop : op ∈ Operator.table := by decide
  have htrim : Text.trim command = command := by decide
  have hmode : endMode command = .bare := by decide
  have hcommand : ¬ Redirects true command := by decide
  have htarget : WrittenTarget true path (quoteWord path) := .quoted path
  have hline : line = command ++ .char ' ' :: (op.spelling ++ .char ' ' :: quoteWord path) := by
    decide
  obtain ⟨hanswer, hrun⟩ := redirection_changes_only_target shell hop htrim hmode hcommand htarget
  rw [hline]
  refine ⟨hop, htrim, hmode, hcommand, htarget, hanswer, fun s => ((hrun s).1 ?_).2⟩
  rintro ⟨-, -, -, -, hshowable⟩
  exact hshowable (by decide)

/-- The complaint of a file that cannot be opened cannot be told, and the exit code of the command
is lost with it. -/
theorem redirection_loses_status :
    let path := "/no/".toText ++ [.ofByte 0xFF]
    let line := "nope > ".toText ++ path
    let start : Session := { machine := { tree := .root, directory := [], env := [] } }
    WrittenTarget false path path ∧ (runLine {} start "nope".toText).2.status = 127 ∧
      (runLine {} start line).1 =
        .error (.unencodable { first := 0x4FF, start := 13, stop := 14 }) ∧
      (runLine {} start line).2.status = 0 :=
  ⟨.asItIs (by decide) (by decide) (by decide), rfl, rfl, rfl⟩

end Shell

end LineShell
