import LineShell.Proofs.Line.Scan

/-!
# The quoting grammar

What a line of words looks like, told without a scanner.  A word is a row of segments: characters
that stand for themselves, characters behind a backslash, and quoted pieces.  A line is a row of
words with blanks between them.  Main statement: `readWords_true_iff_line`, strict reading accepts
the lines of the grammar and gives their words.
-/

namespace LineShell

namespace Grammar

/-- What may stand between double quotes, and what it stands for. -/
inductive DoubleContent : Text → Text → Prop
  | nil : DoubleContent [] []
  -- A backslash takes a backslash or a double quote as it is.
  | taken {c : CodePoint} {t u : Text} : c = '\\' ∨ c = '"' → DoubleContent t u →
      DoubleContent (.char '\\' :: c :: t) (c :: u)
  -- Before any other character a backslash stands for itself.
  | kept {c : CodePoint} {t u : Text} : c ≠ '\\' → c ≠ '"' → DoubleContent t u →
      DoubleContent (.char '\\' :: c :: t) (.char '\\' :: c :: u)
  | plain {c : CodePoint} {t u : Text} : c ≠ '\\' → c ≠ '"' → DoubleContent t u →
      DoubleContent (c :: t) (c :: u)

/-- A piece of a word, and what it stands for. -/
inductive Segment : Text → Text → Prop
  | bare {c : CodePoint} : isBlank c = false → c ≠ '\\' → c ≠ '\'' → c ≠ '"' → Segment [c] [c]
  | escaped (c : CodePoint) : Segment ['\\', c] [c]
  | single {t : Text} : .char '\'' ∉ t → Segment (.char '\'' :: (t ++ [.char '\''])) t
  | double {t u : Text} : DoubleContent t u → Segment (.char '"' :: (t ++ [.char '"'])) u

/-- Adjacent segments, one at least. -/
inductive Word : Text → Text → Prop
  | segment {t u : Text} : Segment t u → Word t u
  | append {t t' u u' : Text} : Word t u → Segment t' u' → Word (t ++ t') (u ++ u')

def Gap (t : Text) : Prop := ∀ c ∈ t, isBlank c = true

/-- Words, each behind a gap.  Only the gap before the first word may be empty. -/
inductive Words : Text → List Text → Prop
  | nil : Words [] []
  | snoc {t g v w : Text} {ws : List Text} : Words t ws → Gap g → (ws ≠ [] → g ≠ []) →
      Word v w → Words (t ++ g ++ v) (ws ++ [w])

/-- A whole line: words and a gap, which may be empty. -/
inductive Line : Text → List Text → Prop
  | ended {t g : Text} {ws : List Text} : Words t ws → Gap g → Line (t ++ g) ws
  -- A lone backslash at the very end stands for nothing.
  | escaping {t g : Text} {ws : List Text} : Words t ws → Gap g → Line (t ++ g ++ [.char '\\']) ws

theorem DoubleContent.append {t t' u u' : Text} (h : DoubleContent t u)
    (h' : DoubleContent t' u') : DoubleContent (t ++ t') (u ++ u') := by
  induction h with
  | nil => exact h'
  | taken hc _ ih => exact .taken hc ih
  | kept hslash hquote _ ih => exact .kept hslash hquote ih
  | plain hslash hquote _ ih => exact .plain hslash hquote ih

theorem Gap.append {g g' : Text} (h : Gap g) (h' : Gap g') : Gap (g ++ g') := by
  intro c hc
  rcases List.mem_append.mp hc with hc | hc
  · exact h c hc
  · exact h' c hc

theorem gap_nil : Gap [] := by simp [Gap]

theorem gap_singleton {c : CodePoint} (h : isBlank c = true) : Gap [c] := by simpa [Gap] using h

/-! ## The scanner reads the grammar -/

/-- Inside double quotes a scan adds what the content stands for. -/
theorem DoubleContent.run {t u : Text} (h : DoubleContent t u) (v : Text) :
    ({ mode := .double, word := some v } : Scanner).run t =
      ([], { mode := .double, word := some (v ++ u) }) := by
  induction h generalizing v with
  | nil => simp
  | taken hc _ ih => simp [Scanner.run_cons, Scanner.step, Scanner.extend, hc, ih]
  | kept hslash hquote _ ih =>
    simp [Scanner.run_cons, Scanner.step, Scanner.extend, hslash, hquote, ih]
  | plain hslash hquote _ ih =>
    simp [Scanner.run_cons, Scanner.step, Scanner.extend, hslash, hquote, ih]

theorem run_single {t : Text} (h : .char '\'' ∉ t) (v : Text) :
    ({ mode := .single, word := some v } : Scanner).run t =
      ([], { mode := .single, word := some (v ++ t) }) := by
  induction t generalizing v with
  | nil => simp
  | cons c rest ih =>
    rw [List.mem_cons, not_or] at h
    have hc : c ≠ '\'' := Ne.symm h.1
    simp [Scanner.run_cons, Scanner.step, Scanner.extend, hc, ih h.2]

/-- A segment is added to the word being read, and begins one if there is none. -/
theorem Segment.run {t u : Text} (h : Segment t u) (word : Option Text) :
    ({ mode := .bare, word } : Scanner).run t =
      ([], { mode := .bare, word := some (word.getD [] ++ u) }) := by
  cases h with
  | bare hblank hslash hsingle hdouble =>
    simp [Scanner.run_cons, Scanner.step, Scanner.extend, hblank, hslash, hsingle, hdouble]
  | escaped c => simp [Scanner.run_cons, Scanner.step, Scanner.extend]
  | single ht =>
    have hopen : ({ mode := .bare, word } : Scanner).step '\'' =
        (none, { mode := .single, word := some (word.getD []) }) := by
      simp [Scanner.step, Scanner.extend]
    rw [Scanner.run_cons, hopen, Scanner.run_append, run_single ht]
    simp [Scanner.run_cons, Scanner.step]
  | double ht =>
    have hopen : ({ mode := .bare, word } : Scanner).step '"' =
        (none, { mode := .double, word := some (word.getD []) }) := by
      simp [Scanner.step, Scanner.extend]
    rw [Scanner.run_cons, hopen, Scanner.run_append, ht.run]
    simp [Scanner.run_cons, Scanner.step]

/-- A scan of a word ends with the word as what it is reading. -/
theorem Word.run {t u : Text} (h : Word t u) (word : Option Text) :
    ({ mode := .bare, word } : Scanner).run t =
      ([], { mode := .bare, word := some (word.getD [] ++ u) }) := by
  induction h with
  | segment ht => exact ht.run word
  | append _ ht' ih =>
    rw [Scanner.run_append, ih, ht'.run]
    simp

theorem Gap.run {g : Text} (h : Gap g) (hne : g ≠ []) (word : Option Text) :
    ({ mode := .bare, word } : Scanner).run g = (word.toList, Scanner.start) := by
  induction g generalizing word with
  | nil => exact absurd rfl hne
  | cons c rest ih =>
    have hc : isBlank c = true := h c (by simp)
    rw [Scanner.run_cons, Scanner.step_blank word hc]
    cases rest with
    | nil => simp
    | cons d rest =>
      have hrest : Gap (d :: rest) := fun e he => h e (List.mem_cons_of_mem _ he)
      have hstart : Scanner.start.run (d :: rest) = ([], Scanner.start) :=
        ih hrest (by simp) none
      simp [hstart]

/-- The gap that has to follow words leaves the scan where it started. -/
theorem run_gap_of_run {t g : Text} {ws front : List Text} {last : Option Text}
    (hrun : Scanner.start.run t = (front, { mode := .bare, word := last }))
    (hws : front ++ last.toList = ws) (hg : Gap g) (hne : ws ≠ [] → g ≠ []) :
    Scanner.start.run (t ++ g) = (ws, Scanner.start) := by
  rw [Scanner.run_append, hrun]
  by_cases hgap : g = []
  · -- Nothing separates what follows from the text, so the text holds no word at all.
    have hnil : ws = [] := Decidable.byContradiction fun h => hne h hgap
    rw [hnil, List.append_eq_nil_iff] at hws
    have hlast : last = none := by cases last <;> simp_all
    rw [hgap, hnil, hws.1, hlast]
    rfl
  · rw [hg.run hgap, hws]

/-- A scan of words ends with the last of them, the others behind it. -/
theorem Words.run {t : Text} {ws : List Text} (h : Words t ws) :
    ∃ front last, Scanner.start.run t = (front, { mode := .bare, word := last }) ∧
      front ++ last.toList = ws := by
  induction h with
  | nil => exact ⟨[], none, rfl, rfl⟩
  | @snoc t g v w ws _ hg hne hv ih =>
    rcases ih with ⟨front, last, hrun, hws⟩
    have hgap := run_gap_of_run hrun hws hg hne
    have hword : Scanner.start.run v = ([], { mode := .bare, word := some w }) := hv.run none
    refine ⟨ws, some w, ?_, by simp⟩
    rw [Scanner.run_append, hgap, hword, List.append_nil]

theorem Words.run_gap {t g : Text} {ws : List Text} (h : Words t ws) (hg : Gap g) :
    ∃ front last, Scanner.start.run (t ++ g) = (front, { mode := .bare, word := last }) ∧
      front ++ last.toList = ws := by
  rcases h.run with ⟨front, last, hrun, hws⟩
  by_cases hgap : g = []
  · exact ⟨front, last, by rw [hgap, List.append_nil, hrun], hws⟩
  · exact ⟨ws, none, run_gap_of_run hrun hws hg fun _ => hgap, by simp⟩

/-- Strict reading takes every line of the grammar. -/
theorem Line.readWords {t : Text} {ws : List Text} (h : Line t ws) :
    LineShell.readWords true t = .ok ws := by
  cases h with
  | ended hw hg =>
    rcases hw.run_gap hg with ⟨front, last, hrun, hws⟩
    rw [readWords_true_of_run hrun rfl, hws]
  | @escaping t g ws hw hg =>
    rcases hw.run_gap hg with ⟨front, last, hrun, hws⟩
    have hescape : Scanner.start.run (t ++ g ++ [.char '\\']) =
        (front, { mode := .bareEscape, word := last }) := by
      rw [Scanner.run_append, hrun]
      simp [Scanner.run_cons, Scanner.step]
    rw [readWords_true_of_run hescape rfl, hws]

/-! ## What has been read at each point of a scan -/

/-- The text read since the last word ended, for the mode and the word of a scan: the segments of
the word so far, and behind them what has been opened and not yet closed. -/
inductive Opens : ScanMode → Option Text → Text → Prop
  | nothing : Opens .bare none []
  | word {t u : Text} : Word t u → Opens .bare (some u) t
  | escape {t : Text} {word : Option Text} : Opens .bare word t →
      Opens .bareEscape word (t ++ [.char '\\'])
  | single {t v : Text} {word : Option Text} : Opens .bare word t → .char '\'' ∉ v →
      Opens .single (some (word.getD [] ++ v)) (t ++ .char '\'' :: v)
  | double {t v x : Text} {word : Option Text} : Opens .bare word t → DoubleContent v x →
      Opens .double (some (word.getD [] ++ x)) (t ++ .char '"' :: v)
  | doubleEscape {t : Text} {word : Option Text} : Opens .double word t →
      Opens .doubleEscape word (t ++ [.char '\\'])

theorem Opens.segment {t v x : Text} {word : Option Text} (h : Opens .bare word t)
    (hv : Segment v x) : Opens .bare (some (word.getD [] ++ x)) (t ++ v) := by
  cases h with
  | nothing => exact .word (.segment hv)
  | word ht => exact .word (ht.append hv)

theorem Opens.content {t v x : Text} {word : Option Text} (h : Opens .double word t)
    (hv : DoubleContent v x) : Opens .double (some (word.getD [] ++ x)) (t ++ v) := by
  cases h with
  | @double t v' x' word ht hv' =>
    have h := Opens.double ht (hv'.append hv)
    simpa using h

/-- One character that ends no word.  The cases are the modes of the scanner, and in each of them
the characters that its step tells apart. -/
theorem Opens.step {s : Scanner} {t : Text} {c : CodePoint} (h : Opens s.mode s.word t)
    (hc : s.mode = .bare → isBlank c = false) :
    (s.step c).1 = none ∧ Opens (s.step c).2.mode (s.step c).2.word (t ++ [c]) := by
  rcases s with ⟨mode, word⟩
  cases mode with
  | bare =>
    have hblank : isBlank c = false := hc rfl
    by_cases hslash : c = '\\'
    · subst hslash
      exact ⟨rfl, .escape h⟩
    by_cases hsingle : c = '\''
    · subst hsingle
      exact ⟨rfl, .single h (by simp)⟩
    by_cases hdouble : c = '"'
    · subst hdouble
      exact ⟨rfl, .double h .nil⟩
    simpa [Scanner.step, Scanner.extend, hblank, hslash, hsingle, hdouble] using
      h.segment (.bare hblank hslash hsingle hdouble)
  | bareEscape =>
    cases h with
    | @escape t word ht =>
      simpa [Scanner.step, Scanner.extend] using ht.segment (.escaped c)
  | single =>
    cases h with
    | @single t v word ht hv =>
      by_cases hquote : c = '\''
      · subst hquote
        simpa [Scanner.step] using ht.segment (.single hv)
      · -- A single-quoted run takes every character but the quote as it is.
        have hv' : .char '\'' ∉ v ++ [c] := by simp [hv, Ne.symm hquote]
        simpa [Scanner.step, Scanner.extend, hquote] using Opens.single ht hv'
  | double =>
    by_cases hslash : c = '\\'
    · subst hslash
      exact ⟨rfl, .doubleEscape h⟩
    by_cases hquote : c = '"'
    · subst hquote
      cases h with
      | @double t v x word ht hv => simpa [Scanner.step] using ht.segment (.double hv)
    simpa [Scanner.step, Scanner.extend, hslash, hquote] using
      h.content (.plain hslash hquote .nil)
  | doubleEscape =>
    cases h with
    | @doubleEscape t word ht =>
      -- Between double quotes a backslash stays unless the next character is one of two.
      by_cases htaken : c = '\\' ∨ c = '"'
      · simpa [Scanner.step, Scanner.extend, htaken] using ht.content (.taken htaken .nil)
      · have hkept := ht.content (.kept (fun h => htaken (.inl h)) (fun h => htaken (.inr h)) .nil)
        simpa [Scanner.step, Scanner.extend, htaken] using hkept

/-- What a scan has made of the text it has read: the words that have ended, the gap behind them,
and what it is in the middle of. -/
inductive Scanned : Text → List Text → Scanner → Prop
  | intro {ended gap rest : Text} {ws : List Text} {s : Scanner} : Words ended ws → Gap gap →
      (ws ≠ [] → gap ≠ []) → Opens s.mode s.word rest → Scanned (ended ++ gap ++ rest) ws s

theorem scanned_gap {ended gap : Text} {ws : List Text} (hws : Words ended ws) (hgap : Gap gap)
    (hne : ws ≠ [] → gap ≠ []) : Scanned (ended ++ gap) ws Scanner.start := by
  have hopens : Opens Scanner.start.mode Scanner.start.word [] := .nothing
  simpa using Scanned.intro hws hgap hne hopens

/-- What has been made of a text goes on with one more character. -/
theorem Scanned.step {t : Text} {ws : List Text} {s : Scanner} (h : Scanned t ws s) (c : CodePoint) :
    Scanned (t ++ [c]) (ws ++ (s.step c).1.toList) (s.step c).2 := by
  rcases h with @⟨ended, gap, rest, ws, s, hws, hgap, hne, hopens⟩
  by_cases hend : s.mode = .bare ∧ isBlank c = true
  · have hc : Gap [c] := gap_singleton hend.2
    rcases s with ⟨mode, word⟩
    have hbare : mode = .bare := hend.1
    subst hbare
    rw [Scanner.step_blank word hend.2]
    cases hopens with
    | nothing =>
      -- Between words the blank makes the gap longer.
      simpa using scanned_gap hws (hgap.append hc) (by simp)
    | word hv => exact scanned_gap (hws.snoc hgap hne hv) hc (by simp)
  · have hc : s.mode = .bare → isBlank c = false := by simpa using hend
    have hstep := hopens.step hc
    rw [hstep.1, List.append_assoc]
    simpa using Scanned.intro hws hgap hne hstep.2

theorem Scanned.run {t : Text} {ws : List Text} {s : Scanner} (h : Scanned t ws s) (t' : Text) :
    Scanned (t ++ t') (ws ++ (s.run t').1) (s.run t').2 := by
  induction t' generalizing t ws s with
  | nil => simpa using h
  | cons c rest ih =>
    have hrest := ih (h.step c)
    simpa [Scanner.run_cons] using hrest

/-- Outside quotes the word that is being read is the last word of the text. -/
theorem Words.finish {ended gap rest : Text} {ws : List Text} {word : Option Text}
    (hws : Words ended ws) (hgap : Gap gap) (hne : ws ≠ [] → gap ≠ [])
    (hopens : Opens .bare word rest) :
    ∃ body g, ended ++ gap ++ rest = body ++ g ∧ Words body (ws ++ word.toList) ∧ Gap g := by
  cases hopens with
  | nothing => exact ⟨ended, gap, by simp, by simpa using hws, hgap⟩
  | word hv => exact ⟨ended ++ gap ++ rest, [], by simp, hws.snoc hgap hne hv, gap_nil⟩

/-- Where no quote is open, what has been read is a line. -/
theorem Scanned.line {t : Text} {ws : List Text} {s : Scanner} (h : Scanned t ws s)
    (hquote : s.mode.openQuote = none) : Line t (ws ++ s.word.toList) := by
  rcases h with @⟨ended, gap, rest, ws, s, hws, hgap, hne, hopens⟩
  rcases s with ⟨mode, word⟩
  rcases ScanMode.openQuote_eq_none_iff.mp hquote with hmode | hmode
  · subst hmode
    rcases hws.finish hgap hne hopens with ⟨body, g, heq, hbody, hg⟩
    rw [heq]
    exact .ended hbody hg
  · subst hmode
    cases hopens with
    | @escape v word hv =>
      -- The backslash is the last character, and what stands before it ends outside quotes.
      rcases hws.finish hgap hne hv with ⟨body, g, heq, hbody, hg⟩
      rw [← List.append_assoc, heq]
      exact .escaping hbody hg

/-- Strict reading takes nothing but lines of the grammar. -/
theorem line_of_readWords {t : Text} {ws : List Text} (h : readWords true t = .ok ws) :
    Line t ws := by
  have hok := readWords_true_eq_ok_iff.mp h
  have hstart : Scanned [] [] Scanner.start := scanned_gap .nil gap_nil (absurd rfl)
  have hscanned := hstart.run t
  rw [← hok.2]
  exact hscanned.line hok.1

end Grammar

/-- Strict reading accepts exactly the lines of the grammar and gives their words.  A text is a
line in one way at most, and what is not a line is refused for a quote that stays open. -/
theorem readWords_true_iff_line (t : Text) :
    (∀ ws, readWords true t = .ok ws ↔ Grammar.Line t ws) ∧
      (∀ ws ws', Grammar.Line t ws → Grammar.Line t ws' → ws = ws') ∧
      ((∃ quote, readWords true t = .error (.unterminated quote)) ↔
        ∀ ws, ¬ Grammar.Line t ws) := by
  have hiff : ∀ ws, readWords true t = .ok ws ↔ Grammar.Line t ws := fun ws =>
    ⟨Grammar.line_of_readWords, Grammar.Line.readWords⟩
  refine ⟨hiff, ?_, ?_⟩
  · intro ws ws' h h'
    -- A text has two readings only if the scanner gives two answers.
    have heq : (.ok ws : Except LineError (List Text)) = .ok ws' := by
      rw [← (hiff ws).mpr h, ← (hiff ws').mpr h']
    exact Except.ok.inj heq
  · constructor
    · rintro ⟨quote, herror⟩ ws hline
      rw [(hiff ws).mpr hline] at herror
      cases herror
    · intro hno
      cases hread : readWords true t with
      | ok ws => exact absurd ((hiff ws).mp hread) (hno ws)
      | error e =>
        rcases e with ⟨quote⟩
        exact ⟨quote, rfl⟩

/-- One word of bare, single-quoted and double-quoted segments, before a backslash at the end. -/
theorem readWords_true_iff_line_of_segments :
    Grammar.Line "a'b c'\"\\\"\"\\".toText ["ab c\"".toText] ∧
      ∀ ws, Grammar.Line "a'b c'\"\\\"\"\\".toText ws → ws = ["ab c\"".toText] := by
  have hlines := readWords_true_iff_line "a'b c'\"\\\"\"\\".toText
  have hline := (hlines.1 ["ab c\"".toText]).mp rfl
  exact ⟨hline, fun ws hws => hlines.2.1 ws _ hws hline⟩

end LineShell
