import Cadence.Proofs.Life.Writers

namespace Cadence

variable {σ κ δ : Type}

def windows (start : Instant) : List Instant → List Span
  | [] => []
  | now :: later => now.since start :: windows now later

theorem nanos_windows (start : Instant) (times : List Instant) :
    (windows start times).map (fun window => (window.nanos : Int)) =
      List.zipWith (fun earlier now => max 0 ((now.nanos : Int) - earlier.nanos))
        (start :: times) times := by
  induction times generalizing start with
  | nil => rfl
  | cons now later rest =>
    rw [windows, List.map_cons, List.zipWith_cons_cons, rest now, now.nanos_since]

theorem getLastD_append {α : Type} (first second : List α) (a : α) :
    (first ++ second).getLastD a = second.getLastD (first.getLastD a) := by
  induction first generalizing a with
  | nil => rfl
  | cons b first rest => rw [List.cons_append, List.getLastD_cons, List.getLastD_cons, rest]

theorem windows_append (start : Instant) (first second : List Instant) :
    windows start (first ++ second) =
      windows start first ++ windows (first.getLastD start) second := by
  induction first generalizing start with
  | nil => rfl
  | cons now later rest =>
    rw [List.cons_append, windows, windows, rest now, List.getLastD_cons, List.cons_append]

theorem take_windows (k : Nat) (start : Instant) (times : List Instant) :
    (windows start times).take k = windows start (times.take k) := by
  induction times generalizing k start with
  | nil => rw [windows, List.take_nil, List.take_nil, windows]
  | cons now later rest =>
    cases k with
    | zero => rfl
    | succ k => rw [windows, List.take_succ_cons, List.take_succ_cons, windows, rest]

theorem sum_windows {start : Instant} {times : List Instant}
    (forth : (start :: times).Pairwise fun earlier now => earlier.nanos ≤ now.nanos) :
    start.nanos + ((windows start times).map Span.nanos).sum = (times.getLastD start).nanos := by
  induction times generalizing start with
  | nil => rfl
  | cons now later rest =>
    obtain ⟨after, forth⟩ := List.pairwise_cons.mp forth
    have first : start.nanos ≤ now.nanos := after now List.mem_cons_self
    have window : (now.since start).nanos = now.nanos - start.nanos := rfl
    rw [windows, List.map_cons, List.sum_cons, List.getLastD_cons, ← rest forth, window]
    omega

def instants (deeds : List (Deed δ)) : List Instant := (calls deeds).map (·.now)

theorem instants_append (first second : List (Deed δ)) :
    instants (first ++ second) = instants first ++ instants second := by
  rw [instants, calls_append, List.map_append]
  rfl

structure Timed (before : Meter κ δ × Minuted σ κ δ) (deeds : List (Deed δ))
    (after : Meter κ δ × Minuted σ κ δ) : Prop where
  clock : after.1.clock = before.1.clock
  interval : after.1.interval = before.1.interval
  start : after.1.start = before.1.start
  last : after.1.last = (instants deeds).getLastD before.1.last
  readings : readings after.2.minutes =
    readings before.2.minutes ++ (instants deeds).map (before.1.clock, ·)
  rates : (calls deeds).map (·.report.rate) = (windows before.1.last (instants deeds)).map
    fun window => .ofNat before.1.interval.records.toNat / window.seconds
  elapsed : (calls deeds).map (·.report.elapsed) = (instants deeds).map
    fun now => (now.since before.1.start).seconds

namespace Timed

/-- What reads no clock and makes no report leaves the timing alone. -/
theorem idle {m m' : Meter κ δ} {s s' : Minuted σ κ δ} {deeds : List (Deed δ)}
    (frame : ∃ destination count finished, m' = { m with destination, count, finished })
    (unread : Cadence.readings s'.minutes = Cadence.readings s.minutes)
    (unreported : calls deeds = []) : Timed (m, s) deeds (m', s') := by
  obtain ⟨destination, count, finished, rfl⟩ := frame
  constructor <;> simp [instants, unreported, unread, windows]

theorem trans {before mid after : Meter κ δ × Minuted σ κ δ} {first second : List (Deed δ)}
    (former : Timed before first mid) (latter : Timed mid second after) :
    Timed before (first ++ second) after where
  clock := latter.clock.trans former.clock
  interval := latter.interval.trans former.interval
  start := latter.start.trans former.start
  last := by rw [latter.last, former.last, instants_append, getLastD_append]
  readings := by
    rw [latter.readings, former.readings, former.clock, instants_append, List.map_append,
      List.append_assoc]
  rates := by
    rw [calls_append, List.map_append, former.rates, latter.rates, former.last, former.interval,
      instants_append, windows_append, List.map_append]
  elapsed := by
    rw [calls_append, List.map_append, former.elapsed, latter.elapsed, former.start,
      instants_append, List.map_append]

variable [Surroundings σ κ δ]

theorem report (occasion : Occasion) (m : Meter κ δ) (s : Minuted σ κ δ) :
    Timed (m, s) [.report (m.call occasion s)] (m.report s).2 := by
  obtain ⟨dealings, minutes, emission⟩ := m.report_minutes occasion s
  have read : Cadence.readings (m.report s).2.2.minutes =
      Cadence.readings s.minutes ++ [(m.clock, (m.call occasion s).now)] := by
    rw [minutes, readings_append]
    change _ ++ (m.clock, (m.call occasion s).now) :: Cadence.readings (dealings ++ _) = _
    rw [readings_append, emission.readings, readings_notes]
    rfl
  have frame : ∃ reports, (m.report s).2.1 =
      { m with last := (m.call occasion s).now, reports } := by
    rcases m.report_cases occasion s with ⟨_, _, _, s', ok⟩ | ⟨_, crash, s', error, _⟩
    · exact ⟨m.reports + 1, by rw [ok]⟩
    · exact ⟨m.reports, by rw [error]⟩
  obtain ⟨reports, frame⟩ := frame
  constructor
  case clock => rw [frame]
  case interval => rw [frame]
  case start => rw [frame]
  case last => rw [frame]; rfl
  case readings => exact read
  case rates => rfl
  case elapsed => rfl

theorem law : Law (Timed (σ := σ) (κ := κ) (δ := δ)) where
  stay life := idle ⟨_, _, _, rfl⟩ rfl rfl
  trans := trans
  count m s c := idle ⟨_, _, _, rfl⟩ rfl rfl
  report := report
  mark r m s going := by
    obtain ⟨dealings, emission, ⟨crash, _, same, minutes⟩ | ⟨_, same, minutes⟩⟩ :=
      m.marking_minutes r s
    · refine idle ⟨m.destination, m.count, m.finished, same⟩ ?_ rfl
      rw [minutes, readings_append, emission.readings, List.append_nil]
    · refine idle ⟨m.destination, m.count, true, same⟩ ?_ rfl
      rw [minutes, readings_append, readings_append, readings_append, emission.readings,
        readings_notes]
      exact List.append_nil _

theorem of_run (interval : Interval) (destination : Option δ) (clock : κ) (s : σ)
    (steps : List (Step σ δ)) :
    let start := Meter.begin interval destination clock (Minuted.fresh s)
    Timed start (Step.journal (steps.map Step.minuted) start)
      (Step.through (steps.map Step.minuted) start) := by
  intro start
  apply law.run
  · intro m s destination
    exact idle ⟨_, _, _, rfl⟩ rfl rfl
  · intro change m s
    exact idle ⟨_, _, _, rfl⟩ rfl rfl

end Timed

def Step.Silent (m : Meter κ δ) : Step σ δ → Prop
  | .increment => ¬ m.interval.records.toNat ∣ m.count.toNat + 1
  | .incrementBy n => ∀ c, m.count.toNat < c → c ≤ m.count.toNat + n.toNat →
      ¬ m.interval.records.toNat ∣ c
  | .close => m.finished = true
  | .redirect _ => True
  | .report | .meanwhile _ => False

theorem Meter.advancing_silent [Surroundings σ κ δ] {m : Meter κ δ} {target : UInt64}
    (none : ∀ c, m.count.toNat < c → c ≤ target.toNat → ¬ m.interval.records.toNat ∣ c) (s : σ) :
    (m.advancing target s).outcome.2.2 = s := by
  have unreached : boundaries m.interval m.count target = [] := by
    apply List.eq_nil_iff_forall_not_mem.mpr
    intro c member
    obtain ⟨above, reached, divides⟩ := (mem_boundaries _ _ _ _).mp member
    exact none c.toNat (UInt64.lt_iff_toNat_lt.mp above) (UInt64.le_iff_toNat_le.mp reached) divides
  rw [(m.advancing_reports target s).2, unreached]
  rfl

theorem Step.Silent.surroundings [Surroundings σ κ δ] {step : Step σ δ} {m : Meter κ δ}
    (silent : step.Silent m) (s : σ) : (step.run m s).2.2 = s := by
  rw [← step.course_outcome]
  cases step with
  | increment =>
    by_cases full : m.count = Count.greatest
    · have still : m.incrementing s = .quiet (.error .countOverflow, m, s) := if_pos full
      rw [Step.course, still]
      rfl
    · have going : m.incrementing s = m.advancing (m.count + 1) s := if_neg full
      rw [Step.course, going]
      apply Meter.advancing_silent
      intro c above reached
      rw [Count.toNat_succ m.count full] at reached
      have next : c = m.count.toNat + 1 := by omega
      rw [next]
      exact silent
  | incrementBy n =>
    apply Meter.advancing_silent
    intro c above reached
    rw [Count.toNat_plusUpToGreatest] at reached
    exact silent c above (by omega)
  | close =>
    rw [Step.course, Meter.closing_finished silent]
    rfl
  | redirect destination => rfl
  | report => exact silent.elim
  | meanwhile change => exact silent.elim

theorem Meter.report_returns [Surroundings σ κ δ] (occasion : Occasion) (m : Meter κ δ) (s : σ)
    {r : Report} (returned : (m.report s).1 = .ok r) : r = (m.call occasion s).report := by
  rcases m.report_cases occasion s with ⟨_, _, _, s', ok⟩ | ⟨_, crash, s', error, _⟩
  · rw [ok] at returned
    cases returned
    rfl
  · rw [error] at returned
    cases returned

theorem Meter.close_returns [Surroundings σ κ δ] (m : Meter κ δ) (s : σ) {r : Report}
    (returned : (m.close s).1 = .ok (some r)) : r = (m.call .closing s).report := by
  rw [← m.closing_outcome] at returned
  by_cases shut : m.finished = true
  · rw [m.closing_finished shut] at returned
    cases returned
  · rw [m.closing_open shut] at returned
    rcases m.report_cases .closing s with ⟨_, _, _, s', ok⟩ | ⟨_, crash, s', error, _⟩
    · rw [Meter.reporting_andThen_ok _ ok] at returned
      rcases Meter.marking_cases (m.call .closing s).report _ s' with
        ⟨crash, _, ended⟩ | ⟨_, ended⟩
      · rw [ended] at returned
        cases returned
      · rw [ended] at returned
        cases returned
        rfl
    · rw [Meter.reporting_andThen_error _ error] at returned
      cases returned

/-- Whatever a meter does in its life, and whatever crashes or happens to the surroundings
meanwhile, each report reads the clock once, and nothing else after the start does. The rate of a
report is over the time since the report before, the first over that since the start, and no time
passes on a clock that goes back. If it never does, these times add up to the elapsed time. -/
theorem timing_of_run [Surroundings σ κ δ] (interval : Interval) (destination : Option δ)
    (clock : κ) (s : σ) (steps : List (Step σ δ)) :
    let start := Meter.begin interval destination clock (Minuted.fresh s)
    let deeds := Step.journal (steps.map Step.minuted) start
    let now := (Step.through (steps.map Step.minuted) start).2
    let first := start.1.start
    let times := instants deeds
    readings now.minutes = (first :: times).map (clock, ·) ∧
    (calls deeds).map (·.report.rate) = (windows first times).map
      (fun window => .ofNat interval.records.toNat / window.seconds) ∧
    (calls deeds).map (·.report.elapsed) = times.map (fun now => (now.since first).seconds) ∧
    (windows first times).map (fun window => (window.nanos : Int)) =
      List.zipWith (fun earlier now => max 0 ((now.nanos : Int) - earlier.nanos))
        (first :: times) times ∧
    times.map (fun now => ((now.since first).nanos : Int)) =
      times.map (fun now => max 0 ((now.nanos : Int) - first.nanos)) ∧
    ((first :: times).Pairwise (fun earlier now => earlier.nanos ≤ now.nanos) →
      ∀ k now, times[k]? = some now →
        (((windows first times).take (k + 1)).map Span.nanos).sum = (now.since first).nanos) ∧
    (∀ (occasion : Occasion) (m : Meter κ δ) (s : Minuted σ κ δ) (r : Report),
      (m.report s).1 = .ok r ∨ (m.close s).1 = .ok (some r) → r = (m.call occasion s).report) ∧
    (∀ (step : Step (Minuted σ κ δ) δ) (m : Meter κ δ) (s : Minuted σ κ δ), step.Silent m →
      (step.run m s).2.2 = s) ∧
    (∀ (m : Meter κ δ) (s : Minuted σ κ δ), (m.retire s).2 = (Step.close.run m s).2.2) := by
  intro start deeds now first times
  have timed : Timed start deeds (Step.through (steps.map Step.minuted) start) :=
    .of_run interval destination clock s steps
  have elapsed : times.map (fun now => ((now.since first).nanos : Int)) =
      times.map (fun now => max 0 ((now.nanos : Int) - first.nanos)) :=
    List.map_congr_left fun now _ => now.nanos_since first
  refine ⟨timed.readings, timed.rates, timed.elapsed, nanos_windows first times, elapsed, ?_, ?_,
    ?_, Meter.retire_surroundings⟩
  · intro forth k now here
    have part : (times.take (k + 1)).getLastD first = now := by
      rw [List.take_add_one, here, Option.toList_some, List.getLastD_concat]
    have sorted : (first :: times.take (k + 1)).Pairwise
        fun earlier now => earlier.nanos ≤ now.nanos :=
      forth.sublist ((List.take_sublist _ _).cons_cons _)
    have total := sum_windows sorted
    rw [part] at total
    rw [take_windows, Instant.since, ← total, Nat.add_sub_cancel_left]
  · rintro occasion m s r (returned | returned)
    · exact m.report_returns occasion s returned
    · exact m.close_returns s returned
  · intro step m s silent
    exact silent.surroundings s

def Clocks.squares : Clocks Unit Nat where
  read _ n := (⟨n * n * nanosPerSecond⟩, n + 1)

theorem timing_of_run_squares :
    let start : _ × Minuted (Parted Clocks.squares Writers.refusing) Unit Unit :=
      Meter.begin ⟨2, by decide⟩ none () (.fresh ⟨0, ()⟩)
    let times := instants (Step.journal [.report, .report, .report] start)
    times = [⟨1000000000⟩, ⟨4000000000⟩, ⟨9000000000⟩] ∧
      (start.1.start :: times).Pairwise (fun earlier now => earlier.nanos ≤ now.nanos) ∧
      (((windows start.1.start times).take 3).map Span.nanos).sum = 9000000000 := by
  intro start times
  have later (m : Meter Unit Unit) (s : Minuted (Parted Clocks.squares Writers.refusing) Unit Unit) :
      (m.report s).2.2.state.time = s.state.time + 1 := time_report m s
  have here : times = [⟨1000000000⟩, ⟨4000000000⟩, ⟨9000000000⟩] := by
    let second := (start.1.report start.2).2
    let third := (second.1.report second.2).2
    have two : second.2.state.time = 2 := later start.1 start.2
    have three : third.2.state.time = 3 :=
      (later second.1 second.2).trans (congrArg (· + 1) two)
    have read : times = [1, second.2.state.time, third.2.state.time].map
        fun n => ⟨n * n * nanosPerSecond⟩ := rfl
    rw [read, two, three]
    rfl
  have forth : (start.1.start :: times).Pairwise fun earlier now => earlier.nanos ≤ now.nanos := by
    rw [here]
    decide
  have sums := (timing_of_run ⟨2, by decide⟩ none ()
    (⟨0, ()⟩ : Parted Clocks.squares Writers.refusing) [.report, .report, .report]).2.2.2.2.2.1 forth
  exact ⟨here, forth, sums 2 ⟨9000000000⟩ (congrArg (·[2]?) here)⟩

end Cadence
