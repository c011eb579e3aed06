import LineShell.Proofs.Line.Unquoted
import LineShell.Proofs.Session.Order
import LineShell.Proofs.Text.Numeral

/-!
# The status that a session ends with

A line whose first word is `exit` ends the session, and the word behind it is the status: an integer
that is written with no more digits than are read is kept as it is, and what denotes no integer
stands for 1.  Main statement: `exit_status_kept`.
-/

namespace LineShell

/-- The line ends a session with the status, whatever the session has come to. -/
structure Shell.EndsSessionWith (shell : Shell) (line : Text) (status : Int) : Prop where
  reply : ∀ s, ∃ reply after, shell.runLine s line = (.ok reply, after) ∧
    reply.exitCode = status ∧ reply.endsSession = true ∧ after.status = status
  session : ∀ (loop : Loop) s events front back, loop.shell = shell →
    loop.reader.readings events = front ++ Reading.line line :: back → loop.Quiet s front →
    (loop.run s events).status = status

/-- A numeral needs no quotes. -/
theorem Numeral.plain_render (n : Int) : Plain (.ofChars (render n)) := by
  have hplain : ∀ c ∈ Text.ofChars (render n), isBare c = true ∧ c ≠ .char '>' := by
    intro c hc
    have hblank := not_isBlank_of_mem_render hc
    obtain ⟨d, hd, rfl⟩ := List.mem_map.mp hc
    rcases mem_render hd with rfl | hdigit
    · decide
    · have hne : ∀ {e : Char}, e.isDigit = false → CodePoint.char d ≠ .char e := by
        rintro e he ⟨⟩
        exact Bool.false_ne_true (he.symm.trans hdigit)
      refine ⟨isBare_iff.mpr ⟨hblank, ?_⟩, hne rfl⟩
      simp only [List.mem_cons, List.not_mem_nil, or_false, not_or]
      exact ⟨hne rfl, hne rfl, hne rfl⟩
  exact ⟨fun c hc => (hplain c hc).1, fun hmem => (hplain _ hmem).2 rfl⟩

theorem Numeral.ofChars_render_ne_nil (n : Int) : Text.ofChars (render n) ≠ [] :=
  fun hnil => render_ne_nil n (List.map_eq_nil_iff.mp hnil)

theorem Builtin.exitStatus_render (n : Int) : exitStatus [.ofChars (Numeral.render n)] =
    if (Nat.toDigits 10 n.natAbs).length ≤ 4300 then n else 1 := by
  rw [exitStatus, Numeral.parse?_render, Numeral.maxDigits]
  split <;> rfl

namespace Shell

variable {shell : Shell} {line arg : Text} {more : List Text} {redirection : Option Redirection}

/-- Where no character quotes, escapes or redirects, a line asks for its fields. -/
theorem asks_of_unquoted (shell : Shell) (h : Unquoted line) (harrow : .char '>' ∉ line) :
    shell.Asks line line.fields none := by
  have htrim : Unquoted (Text.trim line) := h.of_subset (Text.trim_subset line)
  have hnot : ¬ Redirects shell.modes.quoteAware (Text.trim line) :=
    not_redirects_of_not_mem _ fun hmem => harrow (Text.trim_subset line hmem)
  rw [Asks, ofLine_of_endMode_eq_bare shell.modes (endMode_of_unquoted htrim) hnot,
    wordsOf_of_unquoted htrim, Text.fields_trim]

/-- A line of two plain names asks for just these. -/
theorem asks_of_plain (shell : Shell) {name : Text} (hname : Plain name) (hne : name ≠ [])
    (harg : Plain arg) (hne' : arg ≠ []) :
    shell.Asks (name ++ .char ' ' :: arg) [name, arg] none := by
  have hnotBlank : ∀ {t : Text}, Plain t → ∀ c ∈ t, isBlank c = false :=
    fun h c hc => (isBare_iff.mp (h.1 c hc)).1
  have hunquoted : Unquoted (name ++ .char ' ' :: arg) := by
    rw [Unquoted, List.forall_mem_append, List.forall_mem_cons]
    exact ⟨unquoted_of_isBare hname.1, by decide, unquoted_of_isBare harg.1⟩
  have harrow : .char '>' ∉ name ++ .char ' ' :: arg := by simp [hname.2, harg.2]
  have hfields : Text.fields (name ++ .char ' ' :: arg) = [name, arg] := by
    rw [Text.fields_append_blank (by decide), Text.fields_of_not_blank (hnotBlank hname) hne,
      Text.fields_of_not_blank (hnotBlank harg) hne', List.singleton_append]
  rw [← hfields]
  exact shell.asks_of_unquoted hunquoted harrow

/-- The first argument alone decides about the status. -/
theorem answer_exit (h : shell.Asks line (Builtin.exit.name :: arg :: more) redirection)
    (m : Machine) : ∃ reply, (shell.answer m line).1 = .ok reply ∧
      reply.exitCode = Builtin.exitStatus [arg] ∧ reply.endsSession = true := by
  rw [answer_builtin h]
  exact ⟨_, rfl, rfl, rfl⟩

theorem endsSessionWith_of_asks (h : shell.Asks line (Builtin.exit.name :: arg :: more) redirection)
    (hshown : ∀ r ∈ redirection, r.path.Showable) :
    shell.EndsSessionWith line (Builtin.exitStatus [arg]) := by
  have hshown' : ∀ words r, shell.Asks line words (some r) → r.path.Showable :=
    fun words r hasks => hshown r (h.unique hasks).2
  have hreply : ∀ s, ∃ reply after, shell.runLine s line = (.ok reply, after) ∧
      reply.exitCode = Builtin.exitStatus [arg] ∧ reply.endsSession = true ∧
      after.status = Builtin.exitStatus [arg] := by
    intro s
    obtain ⟨reply, hanswer, hcode, hends⟩ := answer_exit h s.machine
    obtain ⟨hresult, hstatus⟩ := runLine_of_showable hanswer hshown'
    exact ⟨reply, _, Prod.ext hresult rfl, hcode, hends, hstatus.trans hcode⟩
  refine ⟨hreply, ?_⟩
  rintro loop s events front back rfl hread hfront
  have hstops := loop.stopsAt_of_endsAt (s := front.foldl loop.pass s) ⟨_, _, h⟩ hshown'
  obtain ⟨reply, after, hrun, -, -, hstatus⟩ := hreply (loop.prompted (front.foldl loop.pass s))
  rw [Loop.run_of_exit hread hfront hstops, List.foldl_append, List.foldl_cons, List.foldl_nil,
    Loop.pass, Loop.runLine, hrun]
  exact hstatus

end Shell

/-- Every status is carried as it is: the numeral of an integer behind `exit` ends the session with
that integer, as long as it has no more digits than are read.  A longer numeral, and a word with a
character that stands in no numeral, end it with 1; the arguments behind the first never matter.  A
redirection matters only if the line fails over a file whose path cannot be shown. -/
theorem exit_status_kept (shell : Shell) :
    (∀ n : Int, shell.EndsSessionWith ("exit ".toText ++ .ofChars (Numeral.render n))
      (if (Nat.toDigits 10 n.natAbs).length ≤ 4300 then n else 1)) ∧
      (∀ line arg more redirection,
        shell.Asks line (Builtin.exit.name :: arg :: more) redirection →
          (∀ m, ∃ reply, (shell.answer m line).1 = .ok reply ∧
            reply.exitCode = Builtin.exitStatus [arg] ∧ reply.endsSession = true) ∧
          ((∀ r ∈ redirection, r.path.Showable) →
            shell.EndsSessionWith line (Builtin.exitStatus [arg]))) ∧
      (∀ n : Int, Builtin.exitStatus [.ofChars (Numeral.render n)] =
        if (Nat.toDigits 10 n.natAbs).length ≤ 4300 then n else 1) ∧
      ∀ arg c, c ∈ arg → Numeral.Foreign c → Builtin.exitStatus [arg] = 1 := by
  refine ⟨fun n => ?_, fun line arg more redirection h =>
    ⟨Shell.answer_exit h, Shell.endsSessionWith_of_asks h⟩, Builtin.exitStatus_render, ?_⟩
  · have hcommand : "exit ".toText = Builtin.exit.name ++ " ".toText := rfl
    rw [← Builtin.exitStatus_render, hcommand, List.append_assoc]
    exact Shell.endsSessionWith_of_asks (shell.asks_of_plain (by decide) (by decide)
      (Numeral.plain_render n) (Numeral.ofChars_render_ne_nil n)) fun r hr => nomatch hr
  · intro arg c hmem hforeign
    rw [Builtin.exitStatus, Numeral.parse?_of_foreign hforeign hmem]
    rfl

/-- The status is beyond any machine word and stands in quotes, with an argument and a directive
behind it; a line before it ends nothing, and one is left unread. -/
theorem exit_status_kept_of_quoted_numeral :
    let shell : Shell := { modes := { quoteAware := true, strict := true } }
    let line := " exit '-98765432109876543210' 5 2> f".toText
    shell.Asks line ["exit".toText, "-98765432109876543210".toText, "5".toText]
        (some { stream := .stderr, mode := .truncate, path := "f".toText }) ∧
      (Loop.run { shell, prompt := "$ ".toList, reader := .editor }
        { machine := { tree := .root, directory := [], env := [] } }
        [.text "echo exit".toText, .interrupt, .text line, .text "exit 3".toText]).status =
          -98765432109876543210 ∧
      Builtin.exitStatus ["1e3".toText] = 1 := by
  intro shell line
  obtain ⟨-, hends, hnumeral, hforeign⟩ := exit_status_kept shell
  have hasks : shell.Asks line ["exit".toText, "-98765432109876543210".toText, "5".toText]
      (some { stream := .stderr, mode := .truncate, path := "f".toText }) := rfl
  have hrender : Numeral.render (-98765432109876543210) = "-98765432109876543210".toList := by
    simp [Numeral.render, Nat.toDigits_of_base_le, Nat.toDigits_of_lt_base]
  have hstatus : Builtin.exitStatus ["-98765432109876543210".toText] = -98765432109876543210 := by
    have hkept := hnumeral (-98765432109876543210)
    rw [hrender] at hkept
    refine Eq.trans hkept ?_
    simp [Nat.toDigits_of_base_le, Nat.toDigits_of_lt_base]
  let loop : Loop := { shell, prompt := "$ ".toList, reader := .editor }
  let start : Session := { machine := { tree := .root, directory := [], env := [] } }
  have hquiet : loop.Quiet start [.line "echo exit".toText, .interrupted] := by
    apply Loop.quiet_of_not_endsAt
    intro t ht ⟨args, redirection, hexit⟩
    rcases List.mem_cons.mp ht with heq | hnil
    · have hother : shell.Asks "echo exit".toText ["echo".toText, "exit".toText] none := rfl
      cases heq
      exact absurd (List.cons.inj (hexit.unique hother).1).1 (by decide)
    · cases List.mem_singleton.mp hnil
  refine ⟨hasks, ?_, hforeign "1e3".toText (.char 'e') (by decide) (by decide +kernel)⟩
  have hshown : ∀ r ∈ some { stream := .stderr, mode := .truncate, path := "f".toText },
      Text.Showable (Redirection.path r) := by decide
  have hsession := ((hends line _ _ _ hasks).2 hshown).session loop start
    [.text "echo exit".toText, .interrupt, .text line, .text "exit 3".toText]
    [.line "echo exit".toText, .interrupted] [.line "exit 3".toText] rfl rfl hquiet
  rw [hstatus] at hsession
  exact hsession

end LineShell
