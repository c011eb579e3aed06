import LineShell.Proofs.Session.Entry

/-!
# Settings at start-up

A setting is what an option gives, or else what the environment holds, or else its default, and a
run either keeps to its settings or reports that they cannot be used and does nothing.  Two faults
are found too late for the report: a level that the log does not know, and a history whose home
directory nobody can tell.  Main statement: `startup_all_or_nothing`.
-/

namespace LineShell

/-! ## Effective settings -/

/-- The text that the environment holds for a setting; the last variable of a name counts. -/
def Environment.setting? (env : Environment) (field : Field) : Option Text :=
  (env.reverse.find? fun entry => sameName entry.1 field.variable).map Prod.snd

def Options.value? (o : Options) : Field → Option RawValue
  | .logLevel => o.logLevel.map .text
  | .quoteAware => if o.quoteAware then some (.flag true) else none
  | .strictQuotes => if o.strict then some (.flag true) else none
  | .historyFile | .prompt => none

/-- What a mode of reading comes to, from its flag and from what the environment holds for it.  A
flag switches the mode on, whatever is held, and never off. -/
inductive ModeSet : Bool → Option Text → Bool → Prop
  | flag (held : Option Text) : ModeSet true held true
  | held {t : Text} {b : Bool} : RawValue.toFlag (.text t) = .ok b → ModeSet false (some t) b
  | default : ModeSet false none false

/-- The settings that options and the environment come to.  Whatever is held for a text or a path
has to be made of characters. -/
structure Options.Effective (o : Options) (env : Environment) (settings : Settings) : Prop where
  prompt : (env.setting? .prompt).getD "$ ".toText = .ofChars settings.prompt
  historyFile : settings.historyFile = (env.setting? .historyFile).map LexicalPath.ofText
  historyChars : ∀ t ∈ env.setting? .historyFile, ∃ cs, t = .ofChars cs
  logLevel : (o.logLevel.or (env.setting? .logLevel)).getD "WARNING".toText =
    .ofChars settings.logLevel
  quoteAware : ModeSet o.quoteAware (env.setting? .quoteAware) settings.modes.quoteAware
  strict : ModeSet o.strict (env.setting? .strictQuotes) settings.modes.strict

/-! ## One setting -/

namespace Sources

variable {s : Sources} {field : Field} {held : Option Text}

/-- A text is read as it is held, and has to be made of characters. -/
theorem read_text_eq_ok_iff (h : s.value? field = held.map .text) {default cs : List Char} :
    s.read field RawValue.toText default = .ok cs ↔ held.getD (.ofChars default) = .ofChars cs := by
  rw [read, h]
  cases held with
  | none =>
    show Except.ok default = Except.ok cs ↔ Text.ofChars default = Text.ofChars cs
    rw [Except.ok.injEq]
    exact (List.map_inj_right fun _ _ => CodePoint.char.inj).symm
  | some t =>
    show RawValue.toText (.text t) = .ok cs ↔ t = .ofChars cs
    rw [← Text.chars?_eq_some_iff, RawValue.toText]
    cases t.chars? <;> simp

/-- A path is read in its normal form, and what is held has to be made of characters. -/
theorem read_path_eq_ok_iff (h : s.value? field = held.map .text) {path : Option LexicalPath} :
    s.read field (fun v => v.toPath.map some) none = .ok path ↔
      path = held.map LexicalPath.ofText ∧ ∀ t ∈ held, ∃ cs, t = .ofChars cs := by
  rw [read, h]
  cases held with
  | none => simp [eq_comm]
  | some t =>
    have hchars : t.chars?.isSome = true ↔ ∃ cs, t = .ofChars cs := by
      simp only [Option.isSome_iff_exists, Text.chars?_eq_some_iff]
    simp only [Option.map_some, RawValue.toPath, Option.mem_some_iff, forall_eq', ← hchars]
    cases t.chars?.isSome <;> simp [Except.map, eq_comm]

/-- A mode is read from its flag and from what is held for it. -/
theorem read_flag_eq_ok_iff {flag : Bool}
    (h : s.value? field = (if flag then some (.flag true) else none).or (held.map .text)) {b : Bool} :
    s.read field RawValue.toFlag false = .ok b ↔ ModeSet flag held b := by
  rw [read, h]
  constructor
  · intro hread
    cases flag with
    | true =>
      cases hread
      exact .flag held
    | false =>
      cases held with
      | none =>
        cases hread
        exact .default
      | some t => exact .held hread
  · rintro (_ | hword | _)
    · rfl
    · exact hword
    · rfl

end Sources

/-- Settings are read field by field. -/
theorem Settings.ofSources_eq_ok_iff {s : Sources} {settings : Settings} :
    Settings.ofSources s = .ok settings ↔
      s.read .historyFile (fun v => v.toPath.map some) none = .ok settings.historyFile ∧
      s.read .logLevel RawValue.toText "WARNING".toList = .ok settings.logLevel ∧
      s.read .prompt RawValue.toText "$ ".toList = .ok settings.prompt ∧
      s.read .quoteAware RawValue.toFlag false = .ok settings.modes.quoteAware ∧
      s.read .strictQuotes RawValue.toFlag false = .ok settings.modes.strict := by
  unfold Settings.ofSources
  dsimp only
  constructor
  · intro h
    split at h
    · next hhistory hlevel hprompt hquoteAware hstrict =>
      cases h
      exact ⟨hhistory, hlevel, hprompt, hquoteAware, hstrict⟩
    · cases h
  · obtain ⟨prompt, historyFile, ⟨quoteAware, strict⟩, logLevel⟩ := settings
    intro ⟨hhistory, hlevel, hprompt, hquoteAware, hstrict⟩
    rw [hhistory, hlevel, hprompt, hquoteAware, hstrict]

namespace Invocation

variable {inv : Invocation} {o : Options} {env : Environment}

/-- Without a settings file an option stands over the environment, and nothing else is asked. -/
theorem value?_sources (hfile : inv.settingsFile = none) (o : Options) (env : Environment)
    (field : Field) : (inv.sources o env).value? field =
      (o.value? field).or ((env.setting? field).map .text) := by
  have hgiven : (inv.sources o env).givenValue? field = o.value? field := by
    obtain ⟨command, quoteAware, strict, logLevel, help⟩ := o
    cases field <;> cases quoteAware <;> cases strict <;> cases logLevel <;> rfl
  have henvironment : (inv.sources o env).environmentValue? field =
      (env.setting? field).map .text := by
    rw [Sources.environmentValue?, Environment.setting?, Option.map_map]
    rfl
  have hnone : (inv.sources o env).fileValue? field = none := by
    rw [Sources.fileValue?]
    simp only [sources, hfile]
  rw [Sources.value?, hgiven, henvironment, hnone, Option.or_none]

/-- The settings that are found are those that the options and the environment come to. -/
theorem ofSources_eq_ok_iff (hfile : inv.settingsFile = none) {settings : Settings} :
    Settings.ofSources (inv.sources o env) = .ok settings ↔ o.Effective env settings := by
  have hvalue := value?_sources hfile o env
  have hlevel : (inv.sources o env).value? .logLevel =
      (o.logLevel.or (env.setting? .logLevel)).map .text := by
    rw [hvalue, Options.value?, Option.map_or]
  rw [Settings.ofSources_eq_ok_iff, Sources.read_path_eq_ok_iff (hvalue .historyFile),
    Sources.read_text_eq_ok_iff hlevel, Sources.read_text_eq_ok_iff (hvalue .prompt),
    Sources.read_flag_eq_ok_iff (hvalue .quoteAware),
    Sources.read_flag_eq_ok_iff (hvalue .strictQuotes)]
  constructor
  · intro ⟨⟨hhistory, hchars⟩, hlevel, hprompt, hquoteAware, hstrict⟩
    exact ⟨hprompt, hhistory, hchars, hlevel, hquoteAware, hstrict⟩
  · intro h
    exact ⟨⟨h.historyFile, h.historyChars⟩, h.logLevel, h.prompt, h.quoteAware, h.strict⟩

end Invocation

/-- Options and environment come to one choice of settings at most. -/
theorem Options.Effective.unique {o : Options} {env : Environment} {settings settings' : Settings}
    (h : o.Effective env settings) (h' : o.Effective env settings') : settings = settings' := by
  have hfile : ({} : Invocation).settingsFile = none := rfl
  have hsources := (Invocation.ofSources_eq_ok_iff hfile).mpr h
  have hsources' := (Invocation.ofSources_eq_ok_iff hfile).mpr h'
  exact Except.ok.inj (hsources.symm.trans hsources')

/-! ## What start-up comes to -/

def Settings.level? (settings : Settings) : Option Level :=
  Level.ofName? (Text.ofChars settings.logLevel).upper

namespace Invocation

def sink (inv : Invocation) (o : Options) (level : Level) : Sink :=
  { kind := if inv.isInteractive o then .styled else .plain, level }

def refusal (m : Machine) (reason : List Char) : Report :=
  { ending := .exit 2
    machine := m.print .stderr (Utf8.encode (shellName ++ ": invalid configuration: ".toList ++
      reason ++ ['\n'])) }

def heldSession (s : Session) (sinks : List Sink) (history : Option History) : Report :=
  { ending := .exit s.status, machine := s.machine, sinks, history }

/-- The report is that of the line, or of the session, under the settings and with a log of the
level. -/
inductive RunsUnder (inv : Invocation) (o : Options) (m : Machine) (settings : Settings)
    (level : Level) : Report → Prop
  | line {line : Text} : o.command = some line →
      RunsUnder inv o m settings level (oneLine settings [inv.sink o level] m line)
  | session {history : Option History} {s : Session} : o.command = none →
      settings.history m.env inv.atTerminal = .ok history →
      settings.session m inv.atTerminal inv.input = .ok s →
      RunsUnder inv o m settings level (heldSession s [inv.sink o level] history)

/-- Every way in which a run goes from options that ask for no help. -/
inductive Started (inv : Invocation) (o : Options) (m : Machine) : Report → Prop
  | refused (reason : List Char) : (∀ settings, ¬ o.Effective m.env settings) →
      Started inv o m (refusal m reason)
  | levelUnknown {settings : Settings} : o.Effective m.env settings → settings.level? = none →
      Started inv o m
        { ending := .broken (.unknownLevel { name := (Text.ofChars settings.logLevel).upper })
          machine := m }
  | historyNowhere {settings : Settings} {level : Level} {e : HomeError} :
      o.Effective m.env settings → settings.level? = some level → o.command = none →
      settings.history m.env inv.atTerminal = .error e →
      Started inv o m { ending := .broken (.home e), machine := m, sinks := [inv.sink o level] }
  | under {settings : Settings} {level : Level} {report : Report} : o.Effective m.env settings →
      settings.level? = some level → inv.RunsUnder o m settings level report →
      Started inv o m report

/-- A run can use settings if the log knows their level and, where a session is held, the history
has a place. -/
def CanUse (inv : Invocation) (o : Options) (m : Machine) (settings : Settings) : Prop :=
  (∃ level, settings.level? = some level) ∧
    (o.command = none → ∃ history, settings.history m.env inv.atTerminal = .ok history)

variable {inv : Invocation} {o : Options} {m : Machine} {settings : Settings}

/-- At start-up the log gets the one sink that the level asks for, or none if the level is
unknown. -/
theorem install_eq (inv : Invocation) (o : Options) (settings : Settings) :
    (({} : LogSetup).install (.ofChars settings.logLevel)
        (if inv.isInteractive o then interactiveProfile else defaultProfile)).1 =
      match settings.level? with
      | none => .error { name := (Text.ofChars settings.logLevel).upper }
      | some level => .ok [inv.sink o level] := by
  have hkind : SinkKind.ofProfile
      (if inv.isInteractive o then interactiveProfile else defaultProfile) =
        if inv.isInteractive o then .styled else .plain := by
    cases inv.isInteractive o <;> rfl
  -- Nothing is remembered at start-up, so no set-up is left out.
  simp only [LogSetup.install, reduceCtorEq, if_false, Settings.level?]
  cases Level.ofName? (Text.ofChars settings.logLevel).upper with
  | none => rfl
  | some level =>
    simp only [hkind]
    rfl

/-- Under settings a run goes one of the ways that are listed. -/
theorem planUnder_started (h : o.Effective m.env settings) :
    inv.Started o m ((inv.planUnder o settings m).conclude inv.input) := by
  have hinstall := inv.install_eq o settings
  unfold planUnder
  dsimp only
  -- What the log answers depends on the level alone, as `hinstall` says.
  generalize ({} : LogSetup).install (.ofChars settings.logLevel)
    (if inv.isInteractive o then interactiveProfile else defaultProfile) = installed at hinstall
  obtain ⟨result, setup⟩ := installed
  cases hlevel : settings.level? with
  | none =>
    simp only [hlevel] at hinstall
    rw [hinstall]
    exact .levelUnknown h hlevel
  | some level =>
    simp only [hlevel] at hinstall
    rw [hinstall]
    cases hcommand : o.command with
    | some line => exact .under h hlevel (.line hcommand)
    | none =>
      cases hhistory : settings.history m.env inv.atTerminal with
      | error e => exact .historyNowhere h hlevel hcommand hhistory
      | ok history =>
        refine .under h hlevel (.session hcommand hhistory ?_)
        rw [Settings.session, hhistory]
        rfl

/-- A run from options goes one of the ways that are listed. -/
theorem run_started (hargs : Options.ofArguments inv.args = .ok o) (hhelp : o.help = false)
    (hfile : inv.settingsFile = none) : inv.Started o m (inv.run m) := by
  -- Without a settings file there is no statement in it to complain of.
  have hcomplain : inv.complain m = m := by
    rw [complain, hfile]
    rfl
  rw [run_eq_conclude, plan_of_options m hargs, hhelp, if_neg Bool.false_ne_true, hcomplain]
  cases hsources : Settings.ofSources (inv.sources o m.env) with
  | error invalid =>
    refine .refused invalid.summary fun settings heffective => ?_
    rw [(ofSources_eq_ok_iff hfile).mpr heffective] at hsources
    cases hsources
  | ok settings => exact planUnder_started ((ofSources_eq_ok_iff hfile).mp hsources)

/-! ## All or nothing -/

/-- What runs under settings can use them. -/
theorem RunsUnder.canUse {level : Level} {report : Report} (hlevel : settings.level? = some level)
    (h : inv.RunsUnder o m settings level report) : inv.CanUse o m settings := by
  refine ⟨⟨level, hlevel⟩, fun hnone => ?_⟩
  cases h with
  | line hcommand => cases hcommand.symm.trans hnone
  | session _ hhistory => exact ⟨_, hhistory⟩

/-- Either there are effective settings, the run can use them and it keeps to them; or there are
none such, and the run tells so and does nothing else. -/
def AllOrNothing (inv : Invocation) (o : Options) (m : Machine) : Prop :=
  (∃ settings level, o.Effective m.env settings ∧ settings.level? = some level ∧
      inv.RunsUnder o m settings level (inv.run m)) ∨
    ((∀ settings, o.Effective m.env settings → ¬ inv.CanUse o m settings) ∧
      ∃ reason, inv.run m = refusal m reason)

/-- A run keeps to its settings or refuses them, unless it breaks off. -/
theorem Started.allOrNothing_iff (h : inv.Started o m (inv.run m)) :
    inv.AllOrNothing o m ↔ ∀ settings, o.Effective m.env settings → inv.CanUse o m settings := by
  generalize hrun : inv.run m = report at h
  constructor
  · rintro (⟨settings', level, heffective', hlevel, hunder⟩ | ⟨hnot, reason, hrefusal⟩)
      settings heffective
    · rw [heffective.unique heffective']
      exact hunder.canUse hlevel
    · -- A refusal ends with a status, while a run that breaks off has none.
      have hending : report.ending = .exit 2 := by
        rw [← hrun, hrefusal]
        rfl
      cases h with
      | refused _ hnone => exact absurd heffective (hnone settings)
      | levelUnknown => cases hending
      | historyNowhere => cases hending
      | under hused hlevel hunder => exact absurd (hunder.canUse hlevel) (hnot _ hused)
  · -- The two ways of breaking off are those in which the settings cannot be used.
    intro hcan
    cases h with
    | refused reason hnone =>
      exact .inr ⟨fun settings heffective => absurd heffective (hnone settings), reason, hrun⟩
    | levelUnknown heffective hlevel =>
      obtain ⟨⟨level, hlevel'⟩, -⟩ := hcan _ heffective
      cases hlevel.symm.trans hlevel'
    | historyNowhere heffective _ hcommand herror =>
      obtain ⟨-, hhistory⟩ := hcan _ heffective
      obtain ⟨history, hok⟩ := hhistory hcommand
      cases herror.symm.trans hok
    | under heffective hlevel hunder => exact .inl ⟨_, _, heffective, hlevel, hrun ▸ hunder⟩

end Invocation

/-- Without a settings file the options and the environment come to one choice of settings at most.
The run keeps to it, or else tells that there is none and does nothing, exactly when the settings
that there are can be used: the log knows their level and, for a session, their history has a place.
Otherwise the run breaks off without a word. -/
theorem startup_all_or_nothing {inv : Invocation} {o : Options} (m : Machine)
    (hargs : Options.ofArguments inv.args = .ok o) (hhelp : o.help = false)
    (hfile : inv.settingsFile = none) :
    (∀ settings settings', o.Effective m.env settings → o.Effective m.env settings' →
      settings = settings') ∧
      inv.Started o m (inv.run m) ∧
      (inv.AllOrNothing o m ↔
        ∀ settings, o.Effective m.env settings → inv.CanUse o m settings) := by
  have hstarted : inv.Started o m (inv.run m) := Invocation.run_started hargs hhelp hfile
  exact ⟨fun _ _ h h' => h.unique h', hstarted, hstarted.allOrNothing_iff⟩

/-- A flag stands over a word of the environment that is none for a mode; without the flag the same
word is refused.  A history in nobody's home is met by a session alone. -/
theorem startup_all_or_nothing_of_flag :
    let m : Machine :=
      { tree := .root, directory := []
        env := [("MYSHELL_QUOTE_AWARE_REDIRECTION".toText, "maybe".toText),
          ("Myshell_Log_Level".toText, "debug".toText),
          ("MYSHELL_HISTORY_FILE".toText, "~nobody_42".toText)] }
    let line := "echo 'a > b'".toText
    let flagged : Invocation := { args := ["--quote-aware-redirection".toText, "-c".toText, line] }
    let bare : Invocation := { args := ["-c".toText, line] }
    let held : Invocation := { args := ["--quote-aware-redirection".toText], atTerminal := true }
    let o : Options := { command := some line, quoteAware := true }
    let settings : Settings :=
      { modes := { quoteAware := true }, logLevel := "debug".toList
        historyFile := some { slashes := 0, parts := ["~nobody_42".toText] } }
    o.Effective m.env settings ∧
      flagged.AllOrNothing o m ∧ (flagged.run m).ending = .exit 0 ∧
      bare.AllOrNothing { command := some line } m ∧ (bare.run m).ending = .exit 2 ∧
      ¬ held.AllOrNothing { quoteAware := true } m := by
  intro m line flagged bare held o settings
  have hchars : ∀ t ∈ m.env.setting? .historyFile, ∃ cs, t = .ofChars cs := by
    intro t ht
    exact ⟨"~nobody_42".toList, (Option.some.inj ht).symm⟩
  have heffective : o.Effective m.env settings := ⟨rfl, rfl, hchars, rfl, .flag _, .default⟩
  have hargs : Options.ofArguments flagged.args = .ok o := rfl
  have hargs' : Options.ofArguments bare.args = .ok { command := some line } := rfl
  have hargs'' : Options.ofArguments held.args = .ok { quoteAware := true } := rfl
  obtain ⟨hunique, -, hflagged⟩ := startup_all_or_nothing m hargs rfl rfl
  obtain ⟨-, -, hbare⟩ := startup_all_or_nothing m hargs' rfl rfl
  obtain ⟨-, -, hheld⟩ := startup_all_or_nothing m hargs'' rfl rfl
  refine ⟨heffective, hflagged.mpr ?_, rfl, hbare.mpr ?_, rfl, fun h => ?_⟩
  · intro settings hsettings
    rw [hunique _ _ hsettings heffective]
    exact ⟨⟨.debug, rfl⟩, fun hnone => nomatch hnone⟩
  · intro settings hsettings
    have hheld : m.env.setting? .quoteAware = some "maybe".toText := rfl
    have hmode := hsettings.quoteAware
    rw [hheld] at hmode
    cases hmode with
    | held hword => cases hword
  · obtain ⟨-, hhistory⟩ := hheld.mp h settings ⟨rfl, rfl, hchars, rfl, .flag _, .default⟩
    obtain ⟨history, hok⟩ := hhistory rfl
    cases hok

/-- A level that the log does not know is neither used nor refused: the run breaks off. -/
theorem startup_breaks_at_unknown_level :
    let inv : Invocation := { args := ["--log-level".toText, "LOUD".toText] }
    let m : Machine := { tree := .root, directory := [], env := [] }
    let o : Options := { logLevel := some "LOUD".toText }
    Options.ofArguments inv.args = .ok o ∧
      inv.run m =
        { ending := .broken (.unknownLevel { name := "LOUD".toText }), machine := m } ∧
      ¬ inv.AllOrNothing o m := by
  intro inv m o
  refine ⟨rfl, rfl, ?_⟩
  have hstarted : inv.Started o m (inv.run m) := Invocation.run_started rfl rfl rfl
  rw [hstarted.allOrNothing_iff]
  intro hcan
  have heffective : o.Effective m.env { logLevel := "LOUD".toList } :=
    ⟨rfl, rfl, (fun _ hnone => nomatch hnone), rfl, .default, .default⟩
  obtain ⟨⟨level, hlevel⟩, -⟩ := hcan _ heffective
  cases hlevel

end LineShell
