import Tox.Foundation.Run
import Tox.Node.Tasks

/-!
# The intervals of the tasks over many ticks

The tasks of a controller start with the intervals of the first settings. `startTasks` does not
look at them: an interval that the panel gives as a text other than a number, as zero or as a
negative number is taken over. A reload compares the intervals with those of the new settings, and
leaves them if the new ones are zero.

A tick that changes the interval of the monitor restarts the task in which it runs and does not
return. Hence a tick that returns leaves the monitor with the interval it has had
(`System.tick_intervals`), and settings that change the push interval give the reporter the *pull*
interval of these settings, which is the interval of the monitor or zero. Between two ticks the
monitor has the first pull interval, and the reporter the first push interval, the first pull
interval or zero, whatever settings have been installed (`intervals_between_ticks`).

The intervals are positive and follow the panel in those runs only in which the first settings have
positive intervals and every change of the push interval is one to the pull interval
(`intervals_followed_iff`).
-/

namespace Tox.Node

open Tox.Foundation Tox.Core Tox.Limit Tox.Panel

/-! ### What is expected of the intervals -/

/-- Between two ticks both tasks have a positive interval. -/
def System.PositiveIntervals (s : System) : Prop :=
  s.status = .running → 0 < s.controller.monitorInterval ∧ 0 < s.controller.reportInterval

/-- A reload that succeeds and returns, with settings whose intervals are not zero, leaves the
tasks with the intervals of the settings. -/
def System.FollowsIntervals (lib : Library) (o : Options) (s : System) (input : TickInput) : Prop :=
  ∀ newN, s.status = .running → s.controller.intervalCheck lib o input = some newN →
    (s.tick lib o input).status = .running → newN.pullInterval ≠ 0 → newN.pushInterval ≠ 0 →
      (s.tick lib o input).controller.monitorInterval = newN.pullInterval ∧
        (s.tick lib o input).controller.reportInterval = newN.pushInterval

/-- A reload that returns changes the push interval to the pull interval only. -/
def System.SharesInterval (lib : Library) (o : Options) (s : System) (input : TickInput) : Prop :=
  ∀ newN, s.status = .running → s.controller.intervalCheck lib o input = some newN →
    newN.pullInterval = s.controller.monitorInterval ∨ newN.pullInterval = 0 →
      newN.pushInterval = s.controller.reportInterval ∨ newN.pushInterval = 0 ∨
        newN.pushInterval = newN.pullInterval

/-! ### What a tick does to the intervals -/

/-- Settings with which the comparison of the intervals returns. -/
theorem checkIntervals_running_iff (c : Controller) (newN : NodeInfo) :
    (c.checkIntervals newN).2 = .running ↔
      newN.pullInterval = c.monitorInterval ∨ newN.pullInterval = 0 := by
  unfold Controller.checkIntervals
  split_ifs with hpull hpush
  · exact iff_of_false (by simp) fun h => h.elim (fun heq => hpull.1 heq.symm) hpull.2
  all_goals
    refine iff_of_true rfl ?_
    by_contra hnot
    rw [not_or] at hnot
    exact hpull ⟨Ne.symm hnot.1, hnot.2⟩

/-- When the comparison returns, only the interval of the reporter may have changed. -/
theorem checkIntervals_of_running {c : Controller} {newN : NodeInfo}
    (h : (c.checkIntervals newN).2 = .running) :
    (c.checkIntervals newN).1.monitorInterval = c.monitorInterval ∧
      (c.checkIntervals newN).1.reportInterval =
        if c.reportInterval ≠ newN.pushInterval ∧ newN.pushInterval ≠ 0 then newN.pullInterval
        else c.reportInterval := by
  unfold Controller.checkIntervals at h ⊢
  split_ifs at h ⊢
  · exact ⟨rfl, rfl⟩
  · exact ⟨rfl, rfl⟩

variable {lib : Library} {o : Options} {s : System} {input : TickInput} {newN : NodeInfo}

/-- A tick that does not come to the intervals keeps them. -/
theorem System.tick_keeps_intervals (h : s.controller.intervalCheck lib o input = none) :
    (s.tick lib o input).controller.monitorInterval = s.controller.monitorInterval ∧
      (s.tick lib o input).controller.reportInterval = s.controller.reportInterval := by
  by_cases hs : s.status = .running
  · obtain ⟨hmonitor, hreport, -⟩ := nodeInfoMonitor_keepsIntervals h
    rw [System.tick_of_running hs]
    exact ⟨hmonitor, hreport⟩
  · rw [System.tick_of_not_running hs]
    exact ⟨rfl, rfl⟩

theorem System.tick_running_iff (hs : s.status = .running)
    (h : s.controller.intervalCheck lib o input = some newN) :
    (s.tick lib o input).status = .running ↔
      newN.pullInterval = s.controller.monitorInterval ∨ newN.pullInterval = 0 := by
  obtain ⟨c, hmonitor, -, htick⟩ := nodeInfoMonitor_eq_checkIntervals h
  rw [System.tick_of_running hs, htick, ← hmonitor]
  exact checkIntervals_running_iff c newN

/-- **Reloads that return.** The monitor keeps its interval, and the reporter gets the pull interval
if the push interval is new. -/
theorem System.tick_intervals (hs : s.status = .running)
    (h : s.controller.intervalCheck lib o input = some newN)
    (hreturns : (s.tick lib o input).status = .running) :
    (s.tick lib o input).controller.monitorInterval = s.controller.monitorInterval ∧
      (s.tick lib o input).controller.reportInterval =
        if s.controller.reportInterval ≠ newN.pushInterval ∧ newN.pushInterval ≠ 0 then
          newN.pullInterval
        else s.controller.reportInterval := by
  obtain ⟨c, hmonitor, hreport, htick⟩ := nodeInfoMonitor_eq_checkIntervals h
  rw [System.tick_of_running hs, htick] at hreturns ⊢
  rw [← hmonitor, ← hreport]
  exact checkIntervals_of_running hreturns

/-- A system whose tick has returned was running before. -/
theorem System.running_of_tick (h : (s.tick lib o input).status = .running) :
    s.status = .running := by
  by_contra hs
  rw [System.tick_of_not_running hs] at h
  exact hs h

/-- What a tick that returns can do to the intervals: nothing, or give the reporter the pull
interval. -/
theorem System.intervals_of_tick (hreturns : (s.tick lib o input).status = .running) :
    s.status = .running ∧
      (s.tick lib o input).controller.monitorInterval = s.controller.monitorInterval ∧
      ((s.tick lib o input).controller.reportInterval = s.controller.reportInterval ∨
        ∃ newN, s.controller.intervalCheck lib o input = some newN ∧
          (newN.pullInterval = s.controller.monitorInterval ∨ newN.pullInterval = 0) ∧
          (s.controller.reportInterval ≠ newN.pushInterval ∧ newN.pushInterval ≠ 0) ∧
          (s.tick lib o input).controller.reportInterval = newN.pullInterval) := by
  have hs := System.running_of_tick hreturns
  cases hcheck : s.controller.intervalCheck lib o input with
  | none =>
    obtain ⟨hmonitor, hreport⟩ := System.tick_keeps_intervals (s := s) hcheck
    exact ⟨hs, hmonitor, .inl hreport⟩
  | some newN =>
    have hpull := (System.tick_running_iff hs hcheck).mp hreturns
    obtain ⟨hmonitor, hreport⟩ := System.tick_intervals hs hcheck hreturns
    refine ⟨hs, hmonitor, ?_⟩
    split_ifs at hreport with hpush
    · exact .inr ⟨newN, rfl, hpull, hpush, hreport⟩
    · exact .inl hreport

/-! ### Runs -/

/-- Between two ticks the intervals are those of the start: the monitor has the interval `pull`, and
the reporter the interval `push`, the interval of the monitor or none. -/
def System.HasIntervals (pull push : Int64) (s : System) : Prop :=
  s.status = .running → s.controller.monitorInterval = pull ∧
    (s.controller.reportInterval = push ∨ s.controller.reportInterval = pull ∨
      s.controller.reportInterval = 0)

theorem System.HasIntervals.tick {pull push : Int64} (h : s.HasIntervals pull push)
    (lib : Library) (o : Options) (input : TickInput) :
    (s.tick lib o input).HasIntervals pull push := by
  intro hreturns
  obtain ⟨hs, hmonitor', hreport'⟩ := System.intervals_of_tick hreturns
  obtain ⟨hmonitor, hreport⟩ := h hs
  refine ⟨hmonitor'.trans hmonitor, ?_⟩
  rcases hreport' with hkept | ⟨newN, -, hpull, -, hset⟩
  · rwa [hkept]
  · -- The pull interval of the settings is the interval of the monitor, or the tick would block.
    rw [hset]
    exact .inr (hpull.imp_left fun heq => heq.trans hmonitor)

/-- **The intervals between ticks.** No reload gives a task an interval other than those of the
first settings and zero. -/
theorem intervals_between_ticks {lib : Library} {o : Options} {client : Client}
    {core : Installation} {limiters : LimiterStore} {first : TickInput} {c : Controller}
    (h : Controller.start lib o client core limiters first = .ok c) (inputs : List TickInput) :
    (inputs.foldl (System.tick lib o) { controller := c }).HasIntervals c.info.pullInterval
      c.info.pushInterval := by
  obtain ⟨_, _, -, -, -, -, ⟨hmonitor, hreport⟩, -⟩ := Controller.start_ok h
  have hstart : System.HasIntervals c.info.pullInterval c.info.pushInterval { controller := c } :=
    fun _ => ⟨hmonitor, .inl hreport⟩
  exact List.foldlRecOn inputs (System.tick lib o) hstart fun s hs input _ => hs.tick lib o input

/-- A push interval that is also the pull interval keeps the intervals positive. -/
theorem System.PositiveIntervals.tick (h : s.PositiveIntervals)
    (hshares : s.SharesInterval lib o input) : (s.tick lib o input).PositiveIntervals := by
  intro hreturns
  obtain ⟨hs, hmonitor', hreport'⟩ := System.intervals_of_tick hreturns
  obtain ⟨hmonitor, hreport⟩ := h hs
  rw [hmonitor']
  refine ⟨hmonitor, ?_⟩
  rcases hreport' with hkept | ⟨newN, hcheck, hpull, hpush, hset⟩
  · rwa [hkept]
  · rw [hset]
    obtain hsame | hzero | hshared := hshares newN hs hcheck hpull
    · exact absurd hsame.symm hpush.1
    · exact absurd hzero hpush.2
    · have hne : newN.pullInterval ≠ 0 := hshared ▸ hpush.2
      rwa [hpull.resolve_right hne]

theorem System.SharesInterval.follows (h : s.SharesInterval lib o input) :
    s.FollowsIntervals lib o input := by
  intro newN hs hcheck hreturns hpull hpush
  have hkept := (System.tick_running_iff hs hcheck).mp hreturns
  obtain ⟨hmonitor, hreport⟩ := System.tick_intervals hs hcheck hreturns
  refine ⟨hmonitor.trans (hkept.resolve_right hpull).symm, ?_⟩
  rw [hreport]
  split_ifs with hnew
  · obtain hsame | hzero | hshared := h newN hs hcheck hkept
    · exact absurd hsame.symm hnew.1
    · exact absurd hzero hpush
    · exact hshared.symm
  · by_contra hne
    exact hnew ⟨hne, hpush⟩

/-- A reload that sets the reporter to another interval than the push interval either stops the
reporter or does not follow the settings. -/
theorem System.sharesInterval_of_follows (hfollows : s.FollowsIntervals lib o input)
    (hpositive : (s.tick lib o input).PositiveIntervals) : s.SharesInterval lib o input := by
  intro newN hs hcheck hpull
  have hreturns := (System.tick_running_iff hs hcheck).mpr hpull
  obtain ⟨-, hreport⟩ := System.tick_intervals hs hcheck hreturns
  by_contra hnot
  simp only [not_or] at hnot
  obtain ⟨hnew, hpush, hother⟩ := hnot
  rw [if_pos ⟨Ne.symm hnew, hpush⟩] at hreport
  by_cases hzero : newN.pullInterval = 0
  · obtain ⟨-, hpos⟩ := hpositive hreturns
    rw [hreport, hzero] at hpos
    exact Int64.lt_irrefl hpos
  · obtain ⟨-, hfollowed⟩ := hfollows newN hs hcheck hreturns hzero hpush
    exact hother (hfollowed.symm.trans hreport)

/-- **When the intervals follow the panel.** In a run of a controller both tasks have positive
intervals between ticks, and a reload gives them the intervals of its settings, if and only if the
first settings have positive intervals and no reload that returns changes the push interval to
another interval than its pull interval. -/
theorem intervals_followed_iff {lib : Library} {o : Options} {client : Client}
    {core : Installation} {limiters : LimiterStore} {first : TickInput} {c : Controller}
    (h : Controller.start lib o client core limiters first = .ok c) (inputs : List TickInput) :
    ((∀ p q, inputs = p ++ q →
        (p.foldl (System.tick lib o) { controller := c }).PositiveIntervals) ∧
      ∀ p input q, inputs = p ++ input :: q →
        (p.foldl (System.tick lib o) { controller := c }).FollowsIntervals lib o input) ↔
    (0 < c.info.pullInterval ∧ 0 < c.info.pushInterval) ∧
      Guarded (System.tick lib o) (System.SharesInterval lib o) { controller := c } inputs := by
  obtain ⟨_, _, -, -, -, -, ⟨hmonitor, hreport⟩, -⟩ := Controller.start_ok h
  rw [← hmonitor, ← hreport]
  constructor
  · rintro ⟨hpositive, hfollows⟩
    refine ⟨hpositive [] inputs rfl rfl, Guarded.of_forall_at fun p input q hinputs => ?_⟩
    refine System.sharesInterval_of_follows (hfollows p input q hinputs) ?_
    have hnext := hpositive (p ++ [input]) q (by rw [hinputs, List.append_assoc, List.cons_append,
      List.nil_append])
    rwa [List.foldl_append, List.foldl_cons, List.foldl_nil] at hnext
  · rintro ⟨hstart, hshares⟩
    have hpositive : System.PositiveIntervals { controller := c } := fun _ => hstart
    refine ⟨fun p q hinputs => ?_, fun p input q hinputs => ?_⟩
    · subst hinputs
      exact Guarded.invariant (fun s input hs hok => hs.tick hok) hpositive hshares.of_append
    · subst hinputs
      exact hshares.guard_at.follows

/-! ### The intervals of a small panel -/

/-- An interval of `b` seconds; zero seconds are given as a text. -/
def sampleInterval (b : UInt8) : Any := if b = 0 then .string "never" else .number b.toNat

/-- The small panel with a third and a fourth byte for the pull and the push interval. -/
def pacedLibrary : Library where
  codec :=
    { sampleLibrary.codec with
      unmarshalVAllss := fun body => .ok
        { sampleSettings body with
          baseConfig := some
            { pushInterval := sampleInterval (body.getD 3 0)
              pullInterval := sampleInterval (body.getD 2 0) } } }
  compiles := fun _ => true

/-- The start of a controller with the given intervals. -/
def pacedStart (pull push : UInt8) : Except StartFailure Controller :=
  Controller.start pacedLibrary {} sampleClient ∅ {}
    { node := answer [0, 80, pull, push] "a", users := answer [] "u", alive := notModified }

/-- A tick with new settings. -/
def pacedTick (pull push : UInt8) : TickInput :=
  { node := answer [0, 81, pull, push] "b", users := notModified, alive := notModified }

/-- A tick that returns, after which the reporter has the interval of the monitor. -/
theorem pacedTick_between :
    ∃ c, pacedStart 60 30 = .ok c ∧
      ([pacedTick 60 60].foldl (System.tick pacedLibrary {}) { controller := c }).status =
        .running ∧
      ([pacedTick 60 60].foldl (System.tick pacedLibrary {})
        { controller := c }).HasIntervals c.info.pullInterval c.info.pushInterval :=
  ⟨_, rfl, rfl, intervals_between_ticks (show pacedStart 60 30 = .ok _ from rfl) _⟩

/-- Settings that make the push interval equal to the pull interval are followed. -/
theorem pacedTick_followed :
    ∃ c, pacedStart 60 30 = .ok c ∧
      (∀ p q, [pacedTick 60 60] = p ++ q →
        (p.foldl (System.tick pacedLibrary {}) { controller := c }).PositiveIntervals) ∧
      ∀ p input q, [pacedTick 60 60] = p ++ input :: q →
        (p.foldl (System.tick pacedLibrary {}) { controller := c }).FollowsIntervals pacedLibrary {}
          input := by
  refine ⟨_, rfl, (intervals_followed_iff (show pacedStart 60 30 = .ok _ from rfl) _).mpr
    ⟨by decide, fun newN _ hcheck _ => ?_, trivial⟩⟩
  obtain rfl := Option.some.inj hcheck
  exact .inr (.inr rfl)

/-- A push interval that is a text without a number starts the reporter with the interval zero. A
reload with a push interval of 30 seconds leaves it at 60 seconds, the pull interval. -/
theorem pacedTick_unfollowed :
    (∃ c, pacedStart 60 0 = .ok c ∧ ¬ System.PositiveIntervals { controller := c }) ∧
      ∃ c, pacedStart 60 60 = .ok c ∧
        ¬ System.FollowsIntervals pacedLibrary {} { controller := c } (pacedTick 60 30) := by
  refine ⟨⟨_, rfl, fun h => ?_⟩, _, rfl, fun h => ?_⟩
  · exact absurd (h rfl).2 (by decide)
  · exact absurd (h _ rfl rfl rfl (by decide) (by decide)).2 (by decide)

end Tox.Node
