import Cadence.Proofs.Meter.Course

namespace Cadence.Meter

open Course

variable {σ κ δ : Type} [Surroundings σ κ δ]

theorem reportingAt_append (cs ds : List UInt64) (m : Meter κ δ) (s : σ) :
    m.reportingAt (cs ++ ds) s =
      (m.reportingAt cs s).andThen fun _ m s => m.reportingAt ds s := by
  induction cs generalizing m s with
  | nil => rw [reportingAt, quiet_ok_andThen, List.nil_append]
  | cons c cs rest => simp only [List.cons_append, reportingAt, rest, andThen_assoc]

theorem reportingAt_frame (cs : List UInt64) (m : Meter κ δ) (s : σ) :
    ∃ count last reports,
      (m.reportingAt cs s).outcome.2.1 = { m with count, last, reports } := by
  induction cs generalizing m s with
  | nil => exact ⟨m.count, m.last, m.reports, rfl⟩
  | cons c cs rest =>
    rw [reportingAt]
    rcases report_cases .periodic { m with count := c } s with
      ⟨_, _, _, s', ok⟩ | ⟨_, crash, s', error, _⟩
    · rw [reporting_andThen_ok _ ok]
      obtain ⟨count, last, reports, same⟩ := rest _ s'
      exact ⟨count, last, reports, same⟩
    · rw [reporting_andThen_error _ error]
      exact ⟨_, _, _, rfl⟩

theorem reportingAt_error (cs : List UInt64) (m : Meter κ δ) (s : σ) {crash : Crash}
    {m' : Meter κ δ} {s' : σ} (crashed : (m.reportingAt cs s).outcome = (.error crash, m', s')) :
    ∃ (m₀ : Meter κ δ) (s₀ : σ), m₀.count ∈ cs ∧ m₀.report s₀ = (.error crash, m', s') := by
  induction cs generalizing m s with
  | nil => cases crashed
  | cons c cs rest =>
    rw [reportingAt] at crashed
    rcases report_cases .periodic { m with count := c } s with
      ⟨_, _, _, s₁, ok⟩ | ⟨_, crash', s₁, error, _⟩
    · rw [reporting_andThen_ok _ ok] at crashed
      obtain ⟨m₀, s₀, member, reported⟩ := rest _ s₁ crashed
      exact ⟨m₀, s₀, List.mem_cons_of_mem _ member, reported⟩
    · rw [reporting_andThen_error _ error] at crashed
      cases crashed
      exact ⟨{ m with count := c }, s, List.mem_cons_self, error⟩

/-- An advance sets the count at its end, so it does not matter where the count stood before the
first report. -/
theorem reportingAt_from (c : UInt64) (cs : List UInt64) (target : UInt64) (m : Meter κ δ) (s : σ) :
    (reportingAt cs { m with count := c } s).andThen
        (fun _ m s => quiet (.ok (), { m with count := target }, s)) =
      (reportingAt cs m s).andThen fun _ m s => quiet (.ok (), { m with count := target }, s) := by
  cases cs with
  | nil => rfl
  | cons d ds => rfl

theorem advancing_reports (m : Meter κ δ) (target : UInt64) (s : σ) :
    (m.advancing target s).deeds =
        (m.reportingAt (boundaries m.interval m.count target) s).deeds ∧
      (m.advancing target s).outcome.2.2 =
        (m.reportingAt (boundaries m.interval m.count target) s).outcome.2.2 := by
  rw [advancing]
  generalize reportingAt _ m s = way
  obtain ⟨deeds, result, m', s'⟩ := way
  cases result with
  | error crash => exact ⟨rfl, rfl⟩
  | ok a => exact ⟨List.append_nil deeds, rfl⟩

theorem advancing_trans (mid target : UInt64) (m : Meter κ δ) (s : σ)
    (first : m.count ≤ mid) (second : mid ≤ target) :
    ((m.advancing mid s).andThen fun _ m s => m.advancing target s) = m.advancing target s := by
  rw [advancing, advancing, andThen_assoc, ← boundaries_append _ _ mid _ first second,
    reportingAt_append, andThen_assoc]
  obtain ⟨count, last, reports, frame⟩ :=
    reportingAt_frame (boundaries m.interval m.count mid) m s
  generalize m.reportingAt (boundaries m.interval m.count mid) s = way at frame
  obtain ⟨deeds, result, m', s'⟩ := way
  simp only at frame
  subst frame
  cases result with
  | error crash => rfl
  | ok a =>
    rw [andThen_ok (c := ⟨deeds, .ok a, _, s'⟩) rfl, andThen_ok (c := ⟨deeds, .ok a, _, s'⟩) rfl,
      quiet_ok_andThen]
    have resumed := reportingAt_from mid (boundaries m.interval mid target) target
      { m with count, last, reports } s'
    exact congrArg (fun c => Course.mk (deeds ++ c.deeds) c.outcome) resumed

theorem advancing_self (m : Meter κ δ) (s : σ) : m.advancing m.count s = quiet (.ok (), m, s) := by
  have none : boundaries m.interval m.count m.count = [] := by
    simp [boundaries, multiples]
  rw [advancing, none, reportingAt, quiet_ok_andThen]

theorem boundaries_succ (interval : Interval) (c : UInt64) (room : c ≠ Count.greatest) :
    boundaries interval c (c + 1) = if (c + 1) % interval.records = 0 then [c + 1] else [] := by
  have next := Count.toNat_succ c room
  apply boundaries_of_multiples
  rw [next, multiples_succ, ← next]
  by_cases divides : interval.records.toNat ∣ (c + 1).toNat
  · have zero : (c + 1) % interval.records = 0 :=
      UInt64.toNat_inj.mp (by rw [UInt64.toNat_mod]; exact Nat.mod_eq_zero_of_dvd divides)
    rw [if_pos divides, if_pos zero, List.map_singleton]
  · have nonzero : (c + 1) % interval.records ≠ 0 := by
      intro zero
      have rest := congrArg UInt64.toNat zero
      rw [UInt64.toNat_mod] at rest
      exact divides (Nat.dvd_of_mod_eq_zero rest)
    rw [if_neg divides, if_neg nonzero, List.map_nil]

theorem increment_eq_advancing (m : Meter κ δ) (s : σ) (room : m.count ≠ Count.greatest) :
    m.increment s = (m.advancing (m.count + 1) s).outcome := by
  rw [increment, if_neg room, advancing, boundaries_succ _ _ room]
  by_cases divides : (m.count + 1) % m.interval.records = 0
  · simp only [if_pos divides, reportingAt]
    rcases report_cases .periodic { m with count := m.count + 1 } s with
      ⟨_, _, _, s', ok⟩ | ⟨_, crash, s', error, _⟩
    · rw [ok, reporting_andThen_ok _ ok]
      rfl
    · rw [error, reporting_andThen_error _ error]
      rfl
  · simp only [if_neg divides, reportingAt]
    rfl

theorem incrementing_outcome (m : Meter κ δ) (s : σ) :
    (m.incrementing s).outcome = m.increment s := by
  by_cases full : m.count = Count.greatest
  · rw [incrementing, increment, if_pos full, if_pos full]
    rfl
  · rw [incrementing, if_neg full, increment_eq_advancing m s full]

end Cadence.Meter
