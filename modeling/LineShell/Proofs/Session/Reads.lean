import LineShell.Proofs.Session.Past

/-!
# The reads of a session

A session makes one read after another until it is over, and passes over what it reads:
`run_eq_foldl`.  Every read has one prompt in front of it, and behind the prompt stands a page of
output: `writes_foldl_pass`.  With the prompts left out, a session does what its readings do by
themselves: `unprompted_foldl_pass`.
-/

namespace LineShell

namespace Loop

instance (loop : Loop) (s : Session) (t : Text) : Decidable (loop.StopsAt s t) :=
  decidable_of_iff _ (runLine_fst_iff loop (loop.prompted s) t)

/-- A session is over with a reading: with a line that stops it, or at the end of the input. -/
def Over (loop : Loop) (s : Session) : Reading → Prop
  | .line t => loop.StopsAt s t
  | .interrupted => False
  | .ended => True

instance (loop : Loop) (s : Session) : (r : Reading) → Decidable (loop.Over s r)
  | .line t => inferInstanceAs (Decidable (loop.StopsAt s t))
  | .interrupted => .isFalse id
  | .ended => .isTrue trivial

/-- Readings up to the one with which a session is over, each in the session that the readings
before it leave. -/
def untilOver (loop : Loop) : Session → List Reading → List Reading
  | _, [] => []
  | s, r :: rest => if loop.Over s r then [r] else r :: loop.untilOver (loop.pass s r) rest

/-- What a session reads: one reading for each of its reads, the end of the input included. -/
def reads (loop : Loop) (s : Session) (events : List ReadEvent) : List Reading :=
  loop.untilOver s (events.map (fun event => loop.reader.read (some event)) ++ [.ended])

theorem reads_cons (loop : Loop) (s : Session) (event : ReadEvent) (rest : List ReadEvent) :
    loop.reads s (event :: rest) =
      if loop.Over s (loop.reader.read (some event)) then [loop.reader.read (some event)]
      else loop.reader.read (some event) ::
        loop.reads (loop.pass s (loop.reader.read (some event))) rest := rfl

/-- A session passes over what it reads. -/
theorem run_eq_foldl (loop : Loop) (s : Session) (events : List ReadEvent) :
    loop.run s events = (loop.reads s events).foldl loop.pass s := by
  induction events generalizing s with
  | nil => rfl
  | cons event rest ih =>
    rw [reads_cons]
    cases hevent : loop.reader.read (some event) with
    | ended => exact run_cons_of_ended rest hevent
    | interrupted => exact (run_cons_of_interrupted rest hevent).trans (ih _)
    | line t =>
      by_cases hstops : loop.StopsAt s t
      · rw [if_pos (show loop.Over s (.line t) from hstops)]
        exact run_cons_of_exit rest hevent hstops
      · rw [if_neg (show ¬ loop.Over s (.line t) from hstops)]
        exact (run_cons_of_line rest hevent hstops).trans (ih _)

/-! ## Pages -/

variable (loop : Loop)

theorem pass_eq_after (s : Session) (r : Reading) :
    loop.pass s r = (loop.handle s.fresh r).after (loop.prompted s).machine := by
  have hfresh : (loop.prompted s).fresh = s.fresh := rfl
  rw [pass_eq_handle, handle_eq_after, hfresh]

/-- What each reading of a session writes behind its prompt. -/
def pages (loop : Loop) : Session → List Reading → List (List Write)
  | _, [] => []
  | s, r :: rest =>
    (loop.handle s.fresh r).machine.terminal.writes :: loop.pages (loop.handle s.fresh r) rest

theorem pages_congr {s s' : Session} (h : s.fresh = s'.fresh) (rs : List Reading) :
    loop.pages s rs = loop.pages s' rs := by
  cases rs with
  | nil => rfl
  | cons r rest => rw [pages, pages, h]

theorem pages_eq_of_handle_eq {loop loop' : Loop} (h : loop.handle = loop'.handle) (s : Session)
    (rs : List Reading) : loop.pages s rs = loop'.pages s rs := by
  induction rs generalizing s with
  | nil => rfl
  | cons r rest ih => rw [pages, pages, h, ih]

theorem length_pages (s : Session) (rs : List Reading) : (loop.pages s rs).length = rs.length := by
  induction rs generalizing s with
  | nil => rfl
  | cons r rest ih => rw [pages, List.length_cons, List.length_cons, ih]

/-- Every reading of a session has one prompt, and its page stands behind the prompt. -/
theorem writes_foldl_pass (s : Session) (rs : List Reading) :
    (rs.foldl loop.pass s).machine.terminal.writes = s.machine.terminal.writes ++
      (loop.pages s rs).flatMap fun page => .prompt loop.reader loop.prompt :: page := by
  induction rs generalizing s with
  | nil => simp [pages]
  | cons r rest ih =>
    have hpages : loop.pages (loop.pass s r) rest = loop.pages (loop.handle s.fresh r) rest := by
      apply pages_congr
      rw [pass_eq_after]
      rfl
    have hwrites : (loop.pass s r).machine.terminal.writes = s.machine.terminal.writes ++
        .prompt loop.reader loop.prompt :: (loop.handle s.fresh r).machine.terminal.writes := by
      rw [pass_eq_after]
      exact List.append_assoc _ _ _
    rw [List.foldl_cons, ih, hpages, hwrites, pages, List.flatMap_cons, List.append_assoc]

end Loop

/-! ## Prompts left out -/

namespace Machine

theorem exists_shows_deliver (m : Machine) (stdout stderr : Bytes)
    (redirection : Option Redirection) :
    ∃ outputs, Shows m outputs (m.deliver stdout stderr redirection).2 := by
  cases redirection with
  | none => exact ⟨_, (shows_print m .stderr (withNewline stderr)).trans (shows_print _ .stdout _)⟩
  | some r =>
    obtain ⟨failed, -, hcomes⟩ := m.deliver_to_file stdout stderr r
    exact hcomes.exists_shows

end Machine

/-- A line writes output and nothing else, whether it fails or not. -/
theorem Shell.exists_shows_runLine (shell : Shell) (s : Session) (line : Text) :
    ∃ outputs, s.machine.Shows outputs (shell.runLine s line).2.machine := by
  cases hanswer : (shell.answer s.machine line).1 with
  | error failure =>
    have hterminal := (runLine_unanswered hanswer).2.2.1
    exact ⟨[], hterminal.trans s.machine.shows_nil⟩
  | ok reply =>
    obtain ⟨m, -, hterminal, hmachine, -⟩ := runLine_answered hanswer
    obtain ⟨outputs, hshows⟩ :=
      m.exists_shows_deliver reply.stdout reply.stderr reply.redirection
    rw [hmachine]
    exact ⟨outputs, hshows.of_terminal hterminal⟩

/-- The terminal with the prompts left out of what was written to it. -/
def Terminal.unprompted (terminal : Terminal) : Terminal :=
  { terminal with writes := terminal.writes.filter Write.isData }

def Machine.unprompted (m : Machine) : Machine := { m with terminal := m.terminal.unprompted }

def Session.unprompted (s : Session) : Session := { s with machine := s.machine.unprompted }

theorem Terminal.isData_of_mem_writesOf {kind : StreamKind} {outputs : List (Stream × Bytes)}
    {write : Write} (h : write ∈ writesOf kind outputs) : write.isData = true := by
  obtain ⟨output, -, rfl⟩ := List.mem_map.mp h
  rfl

namespace Machine

/-- Prompts can be left out without anything else being told differently. -/
theorem retells_unprompted : Retells unprompted where
  withHost m host := rfl
  note m event := rfl
  print m stream data := by
    rw [print, print, Terminal.print_eq, Terminal.print_eq]
    simp [unprompted, Terminal.unprompted,
      List.filter_eq_self.mpr fun write => Terminal.isData_of_mem_writesOf]

theorem unprompted_promptFor (m : Machine) (reader : Reader) (text : List Char) :
    (m.promptFor reader text).unprompted = m.unprompted := by
  simp [unprompted, Terminal.unprompted, promptFor, Terminal.promptFor, Write.isData]

end Machine

namespace Loop

variable (loop : Loop)

/-- The page of a reading is output only. -/
theorem isData_of_mem_handle (s : Session) (r : Reading) :
    ∀ write ∈ (loop.handle s.fresh r).machine.terminal.writes, write.isData = true := by
  cases r with
  | interrupted => exact fun write hwrite => absurd hwrite List.not_mem_nil
  | ended => exact fun write hwrite => absurd hwrite List.not_mem_nil
  | line t =>
    intro write hwrite
    obtain ⟨outputs, hshows⟩ := loop.shell.exists_shows_runLine s.fresh t
    have hwrites : (loop.handle s.fresh (.line t)).machine.terminal.writes =
        Terminal.writesOf s.machine.terminal.kind outputs := by
      rw [handle, (loop.host_terminal_runLine s.fresh t).2, hshows]
      rfl
    rw [hwrites] at hwrite
    exact Terminal.isData_of_mem_writesOf hwrite

theorem isData_of_mem_pages {s : Session} {rs : List Reading} {page : List Write}
    (h : page ∈ loop.pages s rs) : ∀ write ∈ page, write.isData = true := by
  induction rs generalizing s with
  | nil => cases h
  | cons r rest ih =>
    rcases List.mem_cons.mp h with rfl | hrest
    · exact loop.isData_of_mem_handle s r
    · exact ih hrest

theorem unprompted_handle (s : Session) (r : Reading) :
    (loop.handle s r).unprompted = loop.handle s.unprompted r :=
  (loop.handle_retold Machine.retells_unprompted s r).symm

/-- With the prompts left out, a pass does what its reading does by itself. -/
theorem unprompted_pass (s : Session) (r : Reading) :
    (loop.pass s r).unprompted = loop.handle s.unprompted r := by
  have hprompt : (loop.prompted s).unprompted = s.unprompted :=
    congrArg (Session.mk · _) (s.machine.unprompted_promptFor loop.reader loop.prompt)
  rw [pass_eq_handle, unprompted_handle, hprompt]

theorem unprompted_foldl_pass (s : Session) (rs : List Reading) :
    (rs.foldl loop.pass s).unprompted = rs.foldl loop.handle s.unprompted := by
  induction rs generalizing s with
  | nil => rfl
  | cons r rest ih => rw [List.foldl_cons, List.foldl_cons, ih, unprompted_pass]

/-- With the prompts left out, a session does what its readings do by themselves. -/
theorem unprompted_run (s : Session) (events : List ReadEvent) :
    (loop.run s events).unprompted = (loop.reads s events).foldl loop.handle s.unprompted := by
  rw [run_eq_foldl, unprompted_foldl_pass]

end Loop

/-! ## Sessions that are the same but for prompts -/

/-- What a line does to a machine is up to the machine. -/
theorem Shell.runLine_congr (shell : Shell) {s s' : Session} (h : s.machine = s'.machine)
    (line : Text) :
    (shell.runLine s line).1 = (shell.runLine s' line).1 ∧
      (shell.runLine s line).2.machine = (shell.runLine s' line).2.machine := by
  simp only [runLine, h]
  rcases shell.answer s'.machine line with ⟨failure | reply, m⟩
  · exact ⟨rfl, rfl⟩
  · dsimp only
    rcases m.deliver reply.stdout reply.stderr reply.redirection with ⟨_ | failure, left⟩
    · exact ⟨rfl, rfl⟩
    · exact ⟨rfl, rfl⟩

namespace Loop

variable {loop loop' : Loop} {s s' : Session}

theorem machine_handle_congr (hshell : loop.shell = loop'.shell) (h : s.machine = s'.machine)
    (r : Reading) : (loop.handle s r).machine = (loop'.handle s' r).machine := by
  cases r with
  | line t =>
    obtain ⟨hresult, hmachine⟩ := loop'.shell.runLine_congr h t
    simp only [handle, Loop.runLine, hshell]
    generalize loop'.shell.runLine s t = done at hresult hmachine ⊢
    generalize loop'.shell.runLine s' t = done' at hresult hmachine ⊢
    obtain ⟨result, after⟩ := done
    obtain ⟨result', after'⟩ := done'
    obtain rfl : result = result' := hresult
    cases result with
    | error failure => exact congrArg (Machine.note · (.lineFailed t failure)) hmachine
    | ok reply => exact hmachine
  | interrupted => exact h
  | ended => exact h

theorem runLine_prompted (loop : Loop) (s : Session) (t : Text) :
    (loop.shell.runLine (loop.prompted s) t).1 = (loop.shell.runLine s.unprompted t).1 := by
  have hprompt : (loop.prompted s).unprompted = s.unprompted :=
    congrArg (Session.mk · _) (s.machine.unprompted_promptFor loop.reader loop.prompt)
  have hline := Machine.retells_unprompted.runLine loop.shell (loop.prompted s) t
  rw [← hprompt]
  exact (congrArg Prod.fst hline).symm

section

variable (hshell : loop.shell = loop'.shell)
  (h : s.machine.unprompted = s'.machine.unprompted)

include hshell h

theorem runLine_prompted_congr (t : Text) :
    (loop.shell.runLine (loop.prompted s) t).1 =
      (loop'.shell.runLine (loop'.prompted s') t).1 := by
  have hmachine : s.unprompted.machine = s'.unprompted.machine := h
  rw [runLine_prompted, runLine_prompted, hshell]
  exact (loop'.shell.runLine_congr hmachine t).1

theorem reply?_congr (r : Reading) : loop.reply? s r = loop'.reply? s' r := by
  cases r with
  | line t => rw [reply?, reply?, runLine_prompted_congr hshell h]
  | interrupted => rfl
  | ended => rfl

theorem over_congr (r : Reading) : loop.Over s r ↔ loop'.Over s' r := by
  cases r with
  | line t =>
    show loop.StopsAt s t ↔ loop'.StopsAt s' t
    rw [StopsAt, StopsAt, runLine_prompted_congr hshell h, hshell]
  | interrupted => exact Iff.rfl
  | ended => exact Iff.rfl

theorem unprompted_machine_pass (r : Reading) :
    (loop.pass s r).machine.unprompted = (loop'.pass s' r).machine.unprompted := by
  have hpass := congrArg Session.machine (loop.unprompted_pass s r)
  have hpass' := congrArg Session.machine (loop'.unprompted_pass s' r)
  have hmachine : s.unprompted.machine = s'.unprompted.machine := h
  exact hpass.trans ((machine_handle_congr hshell hmachine r).trans hpass'.symm)

theorem untilOver_congr (rs : List Reading) : loop.untilOver s rs = loop'.untilOver s' rs := by
  induction rs generalizing s s' with
  | nil => rfl
  | cons r rest ih =>
    have hrest := ih (unprompted_machine_pass hshell h r)
    rw [untilOver, untilOver, hrest]
    simp only [over_congr hshell h r]

end

end Loop

end LineShell
