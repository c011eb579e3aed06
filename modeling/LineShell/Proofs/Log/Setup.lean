import Mathlib.Data.List.Induction
import LineShell.Log.Setup

/-!
# The memory and the sinks of the log

A log set-up remembers the last request of a known level.  A request of an unknown level takes the
sinks away and leaves the memory, so the two drift apart, and they stay apart as long as nothing
comes but failures and repetitions of what is remembered.  `Silenced` says of a list of requests
that it ends in this way, and `sinks_follow_requests` says that nothing else goes wrong.
-/

namespace LineShell

namespace LogSetup

structure Request where
  level : Text
  profile : Text
  deriving Repr, DecidableEq

namespace Request

def key (r : Request) : Text × Text := (r.profile, r.level.upper)

def sink? (r : Request) : Option Sink :=
  (Level.ofName? r.level.upper).map fun level => { kind := .ofProfile r.profile, level }

theorem sink?_congr {r r' : Request} (h : r.key = r'.key) : r.sink? = r'.sink? := by
  obtain ⟨hprofile, hlevel⟩ := Prod.mk.inj h
  rw [sink?, sink?, hprofile, hlevel]

end Request

def serve (setup : LogSetup) (rs : List Request) : LogSetup :=
  rs.foldl (fun setup r => (setup.install r.level r.profile).2) setup

def lastKnown? (rs : List Request) : Option Request := (rs.filter (·.sink?.isSome)).getLast?

/-- A request has failed, and what came behind it has failed too or repeats the last request of a
known level in front of it. -/
def Silenced (rs : List Request) : Prop :=
  ∃ front bad back, rs = front ++ bad :: back ∧ bad.sink? = none ∧
    ∀ r ∈ back, r.sink? = none ∨ (lastKnown? front).map Request.key = some r.key

/-- A last request is served behind the others. -/
theorem serve_concat (setup : LogSetup) (rs : List Request) (r : Request) :
    setup.serve (rs ++ [r]) = ((setup.serve rs).install r.level r.profile).2 := by
  simp only [serve, List.foldl_append, List.foldl_cons, List.foldl_nil]

/-! ## The last request of a known level -/

section LastKnown

variable {rs front back : List Request} {r : Request} {key : Option (Text × Text)}

theorem isSome_sink?_of_lastKnown? (h : lastKnown? rs = some r) : r.sink?.isSome = true := by
  have hmem := List.mem_of_getLast? h
  exact (List.mem_filter.mp hmem).2

theorem lastKnown?_concat_of_none (rs : List Request) (h : r.sink? = none) :
    lastKnown? (rs ++ [r]) = lastKnown? rs := by
  simp [lastKnown?, h]

theorem lastKnown?_concat_of_some (rs : List Request) {sink : Sink} (h : r.sink? = some sink) :
    lastKnown? (rs ++ [r]) = some r := by
  simp [lastKnown?, h]

/-- Failures and repetitions do not change what is remembered. -/
theorem key_lastKnown?_append (hfront : (lastKnown? front).map Request.key = key)
    (hback : ∀ r ∈ back, r.sink? = none ∨ key = some r.key) :
    (lastKnown? (front ++ back)).map Request.key = key := by
  induction back using List.reverseRecOn with
  | nil => rwa [List.append_nil]
  | append_singleton back r ih =>
    rw [← List.append_assoc]
    have hrest := ih fun r' hr' => hback r' (by simp [hr'])
    cases hsink : r.sink? with
    | none => rw [lastKnown?_concat_of_none _ hsink, hrest]
    | some sink =>
      have hkey : key = some r.key := (hback r (by simp)).resolve_left (by simp [hsink])
      rw [lastKnown?_concat_of_some _ hsink, hkey]
      rfl

theorem silenced_concat_of_none (rs : List Request) (h : r.sink? = none) : Silenced (rs ++ [r]) :=
  ⟨rs, r, [], rfl, h, by simp⟩

/-- A request of a known level leaves a silenced log silenced only if it repeats the last one of a
known level. -/
theorem silenced_concat_of_some_iff {sink : Sink} (h : r.sink? = some sink) :
    Silenced (rs ++ [r]) ↔ Silenced rs ∧ (lastKnown? rs).map Request.key = some r.key := by
  constructor
  · rintro ⟨front, bad, back, heq, hbad, hback⟩
    -- The request is known, so it is not the one that has failed.
    cases back using List.reverseRecOn with
    | nil =>
      obtain ⟨-, hr⟩ := List.append_inj' heq rfl
      rw [List.singleton_inj.mp hr, hbad] at h
      cases h
    | append_singleton back last =>
      rw [← List.cons_append, ← List.append_assoc] at heq
      obtain ⟨hrs, hlast⟩ := List.append_inj' heq rfl
      have hlast := List.singleton_inj.mp hlast
      have hkey := (hback last (by simp)).resolve_left (by simp [← hlast, h])
      rw [← hlast] at hkey
      refine ⟨⟨front, bad, back, hrs, hbad, fun r' hr' => hback r' (by simp [hr'])⟩, ?_⟩
      rw [hrs]
      apply key_lastKnown?_append hkey
      intro r' hr'
      rcases List.mem_cons.mp hr' with rfl | hr'
      · exact .inl hbad
      · exact (hback r' (by simp [hr'])).imp_right fun hkey' => hkey.symm.trans hkey'
  · rintro ⟨⟨front, bad, back, rfl, hbad, hback⟩, hkey⟩
    have hsame : (lastKnown? (front ++ bad :: back)).map Request.key =
        (lastKnown? front).map Request.key := by
      apply key_lastKnown?_append rfl
      intro r' hr'
      rcases List.mem_cons.mp hr' with rfl | hr'
      · exact .inl hbad
      · exact hback r' hr'
    refine ⟨front, bad, back ++ [r], by simp, hbad, fun r' hr' => ?_⟩
    rcases List.mem_append.mp hr' with hr' | hr'
    · exact hback r' hr'
    · rw [List.mem_singleton.mp hr', ← hsame, hkey]
      exact .inr rfl

end LastKnown

/-! ## What requests leave -/

/-- What one request does: nothing if it repeats what is remembered, and otherwise the sinks are
replaced by the one that is asked for, or by none. -/
theorem install_cases (setup : LogSetup) (r : Request) :
    (setup.remembered = some r.key ∧ setup.install r.level r.profile = (.ok [], setup)) ∨
      (setup.remembered ≠ some r.key ∧
        match r.sink? with
        | none => setup.install r.level r.profile =
            (.error { name := r.level.upper }, { setup with sinks := [] })
        | some sink => setup.install r.level r.profile =
            (.ok [sink], { sinks := [sink], remembered := some r.key })) := by
  unfold install
  dsimp only
  split
  · next hkey => exact .inl ⟨hkey, rfl⟩
  · next hkey =>
    refine .inr ⟨hkey, ?_⟩
    rw [Request.sink?]
    cases Level.ofName? r.level.upper <;> rfl

/-- What a process that starts with some sinks and no memory has after requests. -/
theorem serve_spec (initial : List Sink) (rs : List Request) :
    (serve { sinks := initial } rs).remembered = (lastKnown? rs).map Request.key ∧
      (Silenced rs → (serve { sinks := initial } rs).sinks = []) ∧
      (¬ Silenced rs → (serve { sinks := initial } rs).sinks =
        match lastKnown? rs with
        | none => initial
        | some r => r.sink?.toList) := by
  induction rs using List.reverseRecOn with
  | nil =>
    refine ⟨rfl, ?_, fun _ => rfl⟩
    rintro ⟨front, bad, back, heq, -⟩
    simp at heq
  | append_singleton rs r ih =>
    rw [serve_concat]
    obtain ⟨hremembered, hsilenced, hheard⟩ := ih
    generalize serve { sinks := initial } rs = setup at hremembered hsilenced hheard
    rcases setup.install_cases r with ⟨hkey, hinstall⟩ | ⟨hkey, hinstall⟩
    · -- The request repeats what is remembered, and that is a request of a known level.
      rw [hinstall]
      rw [hremembered] at hkey
      obtain ⟨last, hlast, hsame⟩ := Option.map_eq_some_iff.mp hkey
      obtain ⟨sink, hsink⟩ := Option.isSome_iff_exists.mp (isSome_sink?_of_lastKnown? hlast)
      rw [Request.sink?_congr hsame] at hsink
      rw [silenced_concat_of_some_iff hsink, lastKnown?_concat_of_some rs hsink]
      refine ⟨hremembered.trans hkey, fun h => hsilenced h.1, fun h => ?_⟩
      rw [hheard fun hrs => h ⟨hrs, hkey⟩, hlast]
      exact congrArg Option.toList (Request.sink?_congr hsame)
    · cases hsink : r.sink? with
      | none =>
        rw [hsink] at hinstall
        rw [hinstall, lastKnown?_concat_of_none rs hsink]
        exact ⟨hremembered, fun _ => rfl, fun h => absurd (silenced_concat_of_none rs hsink) h⟩
      | some sink =>
        rw [hsink] at hinstall
        rw [hinstall, lastKnown?_concat_of_some rs hsink, silenced_concat_of_some_iff hsink]
        rw [hremembered] at hkey
        refine ⟨rfl, fun h => absurd h.2 hkey, fun _ => ?_⟩
        simp only [hsink, Option.toList_some]

/-- A log without a sink is one that was silenced. -/
theorem sinks_serve_eq_nil_iff (initial : List Sink) (rs : List Request) :
    (serve { sinks := initial } rs).sinks = [] ↔ Silenced rs ∨ (initial = [] ∧ rs = []) := by
  obtain ⟨-, hsilenced, hheard⟩ := serve_spec initial rs
  constructor
  · intro hnil
    by_cases h : Silenced rs
    · exact .inl h
    · rw [hheard h] at hnil
      cases hlast : lastKnown? rs with
      | none =>
        rw [hlast] at hnil
        refine .inr ⟨hnil, ?_⟩
        -- Requests of which none is known end in a failure.
        cases rs using List.reverseRecOn with
        | nil => rfl
        | append_singleton rs r =>
          cases hsink : r.sink? with
          | none => exact absurd (silenced_concat_of_none rs hsink) h
          | some sink =>
            rw [lastKnown?_concat_of_some rs hsink] at hlast
            cases hlast
      | some r =>
        obtain ⟨sink, hsink⟩ := Option.isSome_iff_exists.mp (isSome_sink?_of_lastKnown? hlast)
        simp only [hlast, hsink, Option.toList_some] at hnil
        cases hnil
  · rintro (h | ⟨rfl, rfl⟩)
    · exact hsilenced h
    · rfl

/-- A request of a known level succeeds, and its sink is then the only one unless the requests
before it end in silence and it repeats what is remembered: then there is no sink.  A request of an
unknown level fails and leaves no sink, so the sinks stay as they were only if there were none. -/
theorem sinks_follow_requests (initial : List Sink) (front : List Request) (r : Request) :
    let before := serve { sinks := initial } front
    let after := before.install r.level r.profile
    match r.sink? with
    | some sink =>
      (∃ added, after.1 = .ok added) ∧
        (after.2.sinks = [sink] ↔
          ¬ (Silenced front ∧ (lastKnown? front).map Request.key = some r.key)) ∧
        (after.2.sinks ≠ [sink] → after.2.sinks = [])
    | none =>
      after.1 = .error { name := r.level.upper } ∧ after.2.sinks = [] ∧
        (after.2.sinks = before.sinks ↔ Silenced front ∨ (initial = [] ∧ front = [])) := by
  intro before after
  have hcases := before.install_cases r
  have hafter : after.2 = serve { sinks := initial } (front ++ [r]) := (serve_concat _ _ _).symm
  obtain ⟨hremembered, hsilenced, hheard⟩ := serve_spec initial (front ++ [r])
  rw [← hafter] at hremembered hsilenced hheard
  cases hsink : r.sink? with
  | none =>
    have hnil := hsilenced (silenced_concat_of_none front hsink)
    rw [hsink] at hcases
    refine ⟨?_, hnil, ?_⟩
    · rcases hcases with ⟨hkey, -⟩ | ⟨-, hinstall⟩
      · -- What is remembered has a known level.
        rw [(serve_spec initial front).1] at hkey
        obtain ⟨last, hlast, hsame⟩ := Option.map_eq_some_iff.mp hkey
        have hknown := isSome_sink?_of_lastKnown? hlast
        rw [Request.sink?_congr hsame, hsink] at hknown
        cases hknown
      · show (before.install r.level r.profile).1 = _
        rw [hinstall]
    · rw [hnil, eq_comm]
      exact sinks_serve_eq_nil_iff initial front
  | some sink =>
    rw [hsink] at hcases
    rw [silenced_concat_of_some_iff hsink] at hsilenced hheard
    rw [lastKnown?_concat_of_some front hsink] at hheard
    simp only [hsink, Option.toList_some] at hheard
    refine ⟨?_, ⟨fun hsinks h => ?_, hheard⟩, fun hne => ?_⟩
    · rcases hcases with ⟨-, hinstall⟩ | ⟨-, hinstall⟩
      · exact ⟨[], congrArg Prod.fst hinstall⟩
      · exact ⟨[sink], congrArg Prod.fst hinstall⟩
    · rw [hsilenced h] at hsinks
      cases hsinks
    · exact hsilenced (Classical.not_not.mp fun h => hne (hheard h))

/-- A failure takes the sink away, and the request that asks for it again is taken for a
repetition. -/
theorem sinks_lost_behind_failure :
    let plain (level : String) : Request := { level := level.toText, profile := defaultProfile }
    let setup := serve {} [plain "info"]
    setup.sinks = [{ kind := .plain, level := .info }] ∧
      (setup.install "loud".toText defaultProfile).1 = .error { name := "LOUD".toText } ∧
      (setup.install "loud".toText defaultProfile).2.sinks = [] ∧
      ((setup.serve [plain "loud"]).install "info".toText defaultProfile).1 = .ok [] ∧
      ((setup.serve [plain "loud"]).install "info".toText defaultProfile).2.sinks = [] := by
  decide

end LogSetup

end LineShell
