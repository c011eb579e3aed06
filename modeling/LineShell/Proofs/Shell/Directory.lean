import LineShell.Proofs.Host.Directory
import LineShell.Proofs.Shell.Confinement

/-!
# The directory that is told, and the one that is gone to

No line takes the working directory out of its normal form, so what `pwd` tells is a path that `cd`
can be given to come back.  A `cd` that fails says so and moves nothing, and without an argument it
is the `cd` to a tilde.  Main statement: `told_directory_regained`.
-/

namespace LineShell

section

variable {host after : Host} {directories args : List Text}

theorem Builtin.expandHome_of_not_mem {t : Text} (home : Text) (h : .char '~' ∉ t) :
    expandHome home t = t := by
  induction t with
  | nil => rfl
  | cons c rest ih =>
    rw [List.mem_cons, not_or] at h
    obtain ⟨hc, hrest⟩ := h
    rw [expandHome, List.flatMap_cons, if_neg (Ne.symm hc)]
    exact congrArg (c :: ·) (ih hrest)

/-- No command takes the working directory out of its normal form. -/
theorem Execution.directory_normal {command : Command} {result : Except Failure Outcome}
    (h : Execution host directories command result after) (hnormal : host.directory.Normal) :
    after.directory.Normal := by
  cases h with
  | moved hmoved => exact Host.changeDirectory_normal hmoved hnormal
  | ended _ hafter =>
    rw [hafter]
    exact hnormal
  | told | notMoved | directoryUnasked | notFound | notStarted | programUnasked => exact hnormal

end

namespace Builtin

variable {host : Host} {outcome : Outcome}

theorem encode_line {t : Text} {data : Bytes} (h : t.encode = .ok data) :
    (t ++ "\n".toText).encode = .ok (data ++ [newlineByte]) :=
  Text.encode_append_eq_ok_iff.mpr ⟨data, [newlineByte], h, rfl, rfl⟩

/-- A text of the system that is made of characters is written out with the bytes of the system. -/
theorem encode_ofSystem {bytes data : Bytes} (h : (Text.ofSystem bytes).encode = .ok data) :
    data = bytes := by
  obtain ⟨cs, hcs, rfl⟩ := Text.encode_eq_ok_iff.mp h
  have hbytes := encodes_ofSystem bytes
  rw [hcs] at hbytes
  exact (encodes_ofChars cs).unique hbytes

/-- What `pwd` tells without an error is the written form of the working directory, which is made of
characters then. -/
theorem tellDirectory_eq_ok (h : tellDirectory host = .ok outcome) (hcode : outcome.exitCode = 0) :
    (Text.ofSystem host.directory.render).encode = .ok host.directory.render ∧
      outcome = { stdout := host.directory.render ++ [newlineByte] } := by
  rw [tellDirectory, Host.workingDirectory] at h
  split at h
  · next directory hdirectory =>
    split at hdirectory
    · cases hdirectory
      obtain ⟨stdout, hstdout, rfl⟩ := Host.map_eq_ok h
      have hline := Text.encode_append_eq_ok_iff.mp hstdout
      obtain ⟨front, back, hfront, hback, rfl⟩ := hline
      cases hback
      have hbytes := encode_ofSystem hfront
      subst hbytes
      exact ⟨hfront, rfl⟩
    · cases hdirectory
  · obtain ⟨-, hone⟩ := Outcome.eq_of_complain h
    omega

end Builtin

namespace Machine

variable {m done : Machine} {directories args : List Text} {outcome : Outcome} {p : Path}

/-- A builtin that only tells something leaves the machine as it is. -/
theorem execute_told {b : Builtin} {result : Except Failure Outcome}
    (h : b.perform m.toHost directories args = result.map (·, m.toHost)) :
    m.execute directories (.builtin b args) = (result, m) := by
  rw [execute, h]
  cases result with
  | error failure => rfl
  | ok outcome => rfl

theorem eq_say_of_pwd (h : m.execute directories (.builtin .pwd args) = (.ok outcome, done))
    (hcode : outcome.exitCode = 0) :
    (Text.ofSystem m.directory.render).encode = .ok m.directory.render ∧
      outcome = { stdout := m.directory.render ++ [newlineByte] } := by
  rw [execute_told (b := .pwd) rfl] at h
  exact Builtin.tellDirectory_eq_ok (congrArg Prod.fst h) hcode

/-- A directory that is there and made of characters is told. -/
theorem execute_pwd_of_there (hthere : (m.tree.find? m.directory).isSome = true)
    (htext : (Text.ofSystem m.directory.render).encode = .ok m.directory.render)
    (directories args : List Text) : m.execute directories (.builtin .pwd args) =
      (.ok { stdout := m.directory.render ++ [newlineByte] }, m) := by
  have htell : Builtin.tellDirectory m.toHost =
      .ok { stdout := m.directory.render ++ [newlineByte] } := by
    rw [Builtin.tellDirectory, Host.workingDirectory, if_pos hthere]
    show Outcome.say _ = _
    rw [Outcome.say, Builtin.encode_line htext]
    rfl
  rw [execute_told (b := .pwd) rfl, htell]

theorem execute_cd_of_ok (h : m.toHost.changeDirectory (Builtin.destination m.toHost args) =
      .ok { m.toHost with directory := p }) (directories : List Text) :
    m.execute directories (.builtin .cd args) =
      (.ok {}, { m with toHost := { m.toHost with directory := p } }) := by
  unfold Builtin.destination at h
  simp only [execute, Builtin.perform, Builtin.changeDirectory, h]

/-- A `cd` with exit code 1 leaves its complaint and nothing else. -/
theorem eq_complain_of_cd (h : m.execute directories (.builtin .cd args) = (.ok outcome, done))
    (hcode : outcome.exitCode = 1) :
    done = m ∧ Outcome.complain (Builtin.cdComplaint args) 1 = .ok outcome := by
  rcases Builtin.perform_cd m.toHost directories args with
    ⟨p, -, hperform⟩ | ⟨failure, -, hperform⟩ | ⟨failure, -, -, hperform⟩
  · rw [execute, hperform] at h
    cases h
    cases hcode
  · rw [execute, hperform] at h
    cases h
  · rw [execute_told hperform] at h
    obtain ⟨hcomplain, hsame⟩ := Prod.mk.inj h
    exact ⟨hsame.symm, hcomplain⟩

/-- A directory in normal form can be gone to by its written form, and then it is told again. -/
theorem regained (hp : p.Normal) (htext : (Text.ofSystem p.render).encode = .ok p.render)
    (htilde : .char '~' ∉ Text.ofSystem p.render) (hshort : Path.Short p.render)
    (henter : m.toHost.Enterable p) (directories : List Text) :
    ∃ back, m.execute directories (.builtin .cd [.ofSystem p.render]) = (.ok {}, back) ∧
      ∀ directories' args, back.execute directories' (.builtin .pwd args) =
        (.ok { stdout := p.render ++ [newlineByte] }, back) := by
  have hdestination : Builtin.destination m.toHost [.ofSystem p.render] = .ofSystem p.render :=
    Builtin.expandHome_of_not_mem _ htilde
  have hmoved : m.toHost.changeDirectory (Builtin.destination m.toHost [.ofSystem p.render]) =
      .ok { m.toHost with directory := p } := by
    rw [hdestination]
    exact Host.changeDirectory_render hp hshort henter
  obtain ⟨node, hfind, -⟩ := henter
  exact ⟨_, execute_cd_of_ok hmoved directories,
    execute_pwd_of_there (Option.isSome_of_eq_some hfind) htext⟩

end Machine

namespace Shell

variable {shell : Shell} {s after : Session} {line : Text} {reply : Reply}
  {args : List Text} {redirection : Option Redirection}

/-! ## Lines that ask for `cd` -/

/-- A line of `cd` with exit code 1 stays where it is. -/
theorem runLine_cd_of_exitCode (hasks : shell.Asks line (Builtin.cd.name :: args) redirection)
    (h : (shell.answer s.machine line).1 = .ok reply) (hcode : reply.exitCode = 1) :
    (shell.runLine s line).2.machine.directory = s.machine.directory ∧ reply.stdout = [] ∧
      (Builtin.cdComplaint args).encode = .ok reply.stderr := by
  rcases hanswer : shell.answer s.machine line with ⟨result, m⟩
  rw [hanswer] at h
  cases h
  have hmachine := (runLine_of_answer hanswer).1
  rw [answer_builtin hasks] at hanswer
  obtain ⟨hreply, rfl⟩ := Prod.mk.inj hanswer
  obtain ⟨outcome, houtcome, rfl⟩ := Host.map_eq_ok hreply
  obtain ⟨hsame, hcomplain⟩ := Machine.eq_complain_of_cd (Prod.ext houtcome rfl) hcode
  obtain ⟨stderr, hencode, rfl⟩ := Host.map_eq_ok hcomplain
  rw [hmachine, (Machine.deliver_frame _ _ _ _).1]
  have hdirectory := congrArg (fun m : Machine => m.directory) hsame
  exact ⟨hdirectory, rfl, hencode⟩

/-- Without an argument `cd` goes where a tilde leads. -/
theorem runLine_cd_home {line' : Text} (s : Session)
    (h : shell.Asks line [Builtin.cd.name] redirection)
    (h' : shell.Asks line' [Builtin.cd.name, "~".toText] redirection) :
    shell.runLine s line = shell.runLine s line' := by
  have hanswer : shell.answer s.machine line = shell.answer s.machine line' := by
    rw [answer_builtin h, answer_builtin h']
    rfl
  rw [runLine, runLine, hanswer]

/-! ## Runs of lines -/

theorem Answered.directory_normal {host done : Host} {result : Except Failure Reply}
    (h : Answered shell host line result done) (hnormal : host.directory.Normal) :
    done.directory.Normal := by
  cases h with
  | unreadable => exact hnormal
  | idle => exact hnormal
  | carriedOut _ _ hexecution => exact hexecution.directory_normal hnormal
  | failed _ _ hexecution => exact hexecution.directory_normal hnormal

theorem runLine_normal (shell : Shell) (line : Text) (h : s.machine.directory.Normal) :
    (shell.runLine s line).2.machine.directory.Normal := by
  cases hanswer : (shell.answer s.machine line).1 with
  | error failure =>
    rw [(runLine_unanswered hanswer).2.1]
    exact h
  | ok reply =>
    obtain ⟨m, hanswered, -, hmachine, -⟩ := runLine_answered hanswer
    rw [hmachine, (m.deliver_frame _ _ _).1]
    exact hanswered.directory_normal h

/-- No run of lines takes the working directory out of its normal form. -/
theorem runLines_normal (shell : Shell) (lines : List Text) (h : s.machine.directory.Normal) :
    (shell.runLines s lines).machine.directory.Normal :=
  shell.runLines_keeps (P := fun s => s.machine.directory.Normal)
    (fun _ line hs => shell.runLine_normal line hs) h lines

/-- What `pwd` tells in a run of lines is a path in normal form.  If it holds no tilde and is not
too long, `cd` leads back by it whatever has happened since, as long as the directory is there.  A
`cd` that ends with code 1 has moved nothing and complains of its argument as it was read.  Without
an argument `cd` does what it does with a tilde. -/
theorem told_directory_regained (shell : Shell) {start : Session}
    (hnormal : start.machine.directory.Normal) :
    (∀ lines directories args outcome after,
      let s := shell.runLines start lines
      let p := s.machine.directory.render
      let told := Text.ofSystem p
      s.machine.execute directories (.builtin .pwd args) = (.ok outcome, after) →
      outcome.exitCode = 0 →
      outcome = { stdout := p ++ [newlineByte] } ∧ told.encode = .ok p ∧ Path.IsNormalForm p ∧
        (.char '~' ∉ told → Path.Short p →
          ∀ later : Machine, later.toHost.Enterable (Path.names p) → ∀ directories', ∃ back,
            later.execute directories' (.builtin .cd [told]) = (.ok {}, back) ∧
            ∀ directories'' args', back.execute directories'' (.builtin .pwd args') =
              (.ok outcome, back))) ∧
    (∀ (m : Machine) directories args outcome after,
      m.execute directories (.builtin .cd args) = (.ok outcome, after) → outcome.exitCode = 1 →
      after = m ∧ outcome.stdout = [] ∧
        ("cd: ".toText ++ Builtin.cdTarget args ++
          ": No such file or directory\n".toText).encode = .ok outcome.stderr) ∧
    (∀ s line args redirection reply,
      shell.Asks line (Builtin.cd.name :: args) redirection →
      (shell.answer s.machine line).1 = .ok reply → reply.exitCode = 1 →
      (shell.runLine s line).2.machine.directory = s.machine.directory ∧ reply.stdout = [] ∧
        ("cd: ".toText ++ Builtin.cdTarget args ++
          ": No such file or directory\n".toText).encode = .ok reply.stderr) ∧
    (∀ (m : Machine) directories,
      m.execute directories (.builtin .cd []) = m.execute directories (.builtin .cd ["~".toText])) ∧
    ∀ s line line' redirection, shell.Asks line [Builtin.cd.name] redirection →
      shell.Asks line' [Builtin.cd.name, "~".toText] redirection →
      shell.runLine s line = shell.runLine s line' := by
  refine ⟨?_, ?_, fun _ _ _ _ _ => runLine_cd_of_exitCode, fun _ _ => rfl,
    fun s _ _ _ => runLine_cd_home s⟩
  · intro lines directories args outcome after s p told hpwd hcode
    -- Normal form is kept by every line, so it is there whenever `pwd` is asked.
    have hs : s.machine.directory.Normal := shell.runLines_normal lines hnormal
    obtain ⟨htext, rfl⟩ := Machine.eq_say_of_pwd hpwd hcode
    refine ⟨rfl, htext, hs.isNormalForm_render, ?_⟩
    intro htilde hshort later henter directories'
    rw [hs.names_render] at henter
    exact Machine.regained hs htext htilde hshort henter directories'
  · intro m directories args outcome after h hcode
    obtain ⟨hsame, hcomplain⟩ := Machine.eq_complain_of_cd h hcode
    obtain ⟨stderr, hencode, rfl⟩ := Host.map_eq_ok hcomplain
    exact ⟨hsame, rfl, hencode⟩

/-- The way there goes over the home directory, dots and slashes too many, the way back is one
step. -/
theorem told_directory_regained_of_home :
    let start : Session :=
      { machine := { tree := FileTree.root.makeDirectories ["home".toBytes, "me".toBytes]
                     directory := []
                     env := [("HOME".toText, "/home/me".toText)] } }
    start.machine.directory.Normal ∧
      (∃ back, start.machine.execute [] (.builtin .cd ["/home/me".toText]) = (.ok {}, back) ∧
        ∀ directories args, back.execute directories (.builtin .pwd args) =
          (.ok { stdout := "/home/me\n".toBytes }, back)) ∧
      runLine {} start "cd".toText = runLine {} start "cd ~".toText := by
  intro start
  have hnormal : start.machine.directory.Normal := by decide
  obtain ⟨htold, -, -, -, hhome⟩ := told_directory_regained {} hnormal
  refine ⟨hnormal, ?_, hhome start "cd".toText "cd ~".toText none rfl rfl⟩
  have hdirectory : (runLines {} start ["cd".toText, "cd ..//./me/".toText]).machine.directory =
      ["home".toBytes, "me".toBytes] := by decide +kernel
  have hpwd : (runLines {} start ["cd".toText, "cd ..//./me/".toText]).machine.execute []
      (.builtin .pwd []) = (.ok { stdout := "/home/me\n".toBytes },
        (runLines {} start ["cd".toText, "cd ..//./me/".toText]).machine) := by decide +kernel
  obtain ⟨-, -, -, hback⟩ := htold _ _ _ _ _ hpwd rfl
  rw [hdirectory] at hback
  exact hback (by decide) (by decide) start.machine ⟨_, rfl, rfl, rfl⟩ []

end Shell

end LineShell
