import Cadence.Proofs.Meter.Advance

namespace Cadence.Meter

open Course

variable {σ κ δ : Type} [Surroundings σ κ δ]

def NextAfter (interval : Interval) (count : UInt64) (boundary : Option UInt64) : Prop :=
  ∀ b, boundary = some b ↔
    b.toNat = (count.toNat / interval.records.toNat + 1) * interval.records.toNat

theorem nextBoundary?_next (m : Meter κ δ) : NextAfter m.interval m.count m.nextBoundary? := by
  intro b
  have positive := m.interval.records_pos
  simp only [nextBoundary?, Option.bind_eq_some_iff, Count.plus?_eq_some_iff,
    Count.times?_eq_some_iff, UInt64.toNat_div, UInt64.toNat_one]
  constructor
  · rintro ⟨k, factor, product⟩
    rw [product, factor]
  · intro product
    have bound := b.toNat_lt
    have factor : m.count.toNat / m.interval.records.toNat + 1 ≤ b.toNat := by
      rw [product]
      exact Nat.le_mul_of_pos_right _ positive
    refine ⟨UInt64.ofNat (m.count.toNat / m.interval.records.toNat + 1), ?_, ?_⟩
    · exact UInt64.toNat_ofNat_of_lt' (Nat.lt_of_le_of_lt factor bound)
    · rw [UInt64.toNat_ofNat_of_lt' (Nat.lt_of_le_of_lt factor bound), product]

theorem plus?_next (interval : Interval) (b : UInt64) (divides : interval.records.toNat ∣ b.toNat) :
    NextAfter interval b (Count.plus? b interval.records) := by
  intro c
  rw [Count.plus?_eq_some_iff, Nat.add_mul, Nat.div_mul_cancel divides, Nat.one_mul]

theorem boundaries_of_next {interval : Interval} {count b target : UInt64}
    (next : NextAfter interval count (some b)) (reached : b ≤ target) :
    count < b ∧ interval.records.toNat ∣ b.toNat ∧
      boundaries interval count target = b :: boundaries interval b target := by
  have product := (next b).mp rfl
  have above : count.toNat < b.toNat := by
    rw [product, Nat.mul_comm]
    exact Nat.lt_mul_div_succ _ interval.records_pos
  have near : b.toNat ≤ count.toNat + interval.records.toNat := by
    rw [product, Nat.add_mul, Nat.one_mul]
    exact Nat.add_le_add_right (Nat.div_mul_le_self _ _) _
  have divides : interval.records.toNat ∣ b.toNat := ⟨_, product.trans (Nat.mul_comm _ _)⟩
  have single : boundaries interval count b = [b] := by
    apply boundaries_of_multiples
    exact multiples_to_next _ _ _ above divides near
  refine ⟨UInt64.lt_iff_toNat_lt.mpr above, divides, ?_⟩
  rw [← boundaries_append interval count b target
    (UInt64.le_of_lt (UInt64.lt_iff_toNat_lt.mpr above)) reached, single, List.singleton_append]

theorem boundaries_before_next {interval : Interval} {count target : UInt64}
    {boundary : Option UInt64} (next : NextAfter interval count boundary)
    (beyond : boundary.filter (· ≤ target) = none) : boundaries interval count target = [] := by
  apply List.eq_nil_iff_forall_not_mem.mpr
  intro c member
  obtain ⟨above, reached, k, factor⟩ := (mem_boundaries _ _ _ _).mp member
  have positive := interval.records_pos
  have quotient : count.toNat / interval.records.toNat < k := by
    rw [Nat.div_lt_iff_lt_mul positive, Nat.mul_comm, ← factor]
    exact UInt64.lt_iff_toNat_lt.mp above
  have least : (count.toNat / interval.records.toNat + 1) * interval.records.toNat ≤ c.toNat := by
    rw [factor, Nat.mul_comm]
    exact Nat.mul_le_mul_left _ quotient
  -- a multiple that is at most `c` is a count, so there is a boundary, and it is not beyond
  have word := UInt64.toNat_ofNat_of_lt' (Nat.lt_of_le_of_lt least c.toNat_lt)
  have present := (next _).mpr word
  rw [present, Option.filter_eq_none_iff] at beyond
  apply beyond _ rfl
  rw [decide_eq_true_eq, UInt64.le_iff_toNat_le, word]
  exact least.trans (UInt64.le_iff_toNat_le.mp reached)

theorem reportBoundaries_eq (target : UInt64) (boundary : Option UInt64) (m : Meter κ δ) (s : σ)
    (next : NextAfter m.interval m.count boundary) :
    m.reportBoundaries target boundary s =
      (m.reportingAt (boundaries m.interval m.count target) s).outcome := by
  induction distance : target.toNat - m.count.toNat using Nat.strong_induction_on
    generalizing boundary m s with
  | _ n shorter =>
    cases reach : boundary.filter (· ≤ target) with
    | none =>
      rw [reportBoundaries_beyond reach, boundaries_before_next next reach]
      rfl
    | some b =>
      obtain ⟨rfl, reached⟩ := Option.filter_eq_some_iff.mp reach
      have reached : b ≤ target := by simpa using reached
      obtain ⟨above, divides, first⟩ := boundaries_of_next next reached
      rw [reportBoundaries_reached reached, first, reportingAt]
      rcases report_cases .periodic { m with count := b } s with
        ⟨_, _, _, s', ok⟩ | ⟨_, crash, s', error, _⟩
      · rw [ok, reporting_andThen_ok _ ok]
        have nearer : target.toNat - b.toNat < n := by
          rw [UInt64.lt_iff_toNat_lt] at above
          rw [UInt64.le_iff_toNat_le] at reached
          omega
        exact shorter _ nearer _ _ s' (plus?_next m.interval b divides) rfl
      · rw [error, reporting_andThen_error _ error]

theorem incrementingBy_outcome (m : Meter κ δ) (n : UInt64) (s : σ) :
    (m.incrementingBy n s).outcome = m.incrementBy n s := by
  rw [incrementingBy, incrementBy, advancing, reportBoundaries_eq _ _ _ _ (nextBoundary?_next m)]
  generalize reportingAt _ m s = way
  obtain ⟨deeds, result, m', s'⟩ := way
  cases result <;> rfl

theorem advancing_error {m m' : Meter κ δ} {s s' : σ} {target : UInt64} {crash : Crash}
    (error : (m.advancing target s).outcome = (.error crash, m', s')) :
    (m.reportingAt (boundaries m.interval m.count target) s).outcome = (.error crash, m', s') := by
  rw [advancing] at error
  generalize reportingAt _ m s = way at error
  obtain ⟨deeds, result, m₁, s₁⟩ := way
  cases result with
  | error crash => exact error
  | ok a => cases error

theorem advancing_count {m m' : Meter κ δ} {s s' : σ} {target : UInt64}
    (ok : (m.advancing target s).outcome = (.ok (), m', s')) : m'.count = target := by
  rw [advancing] at ok
  generalize reportingAt _ m s = way at ok
  obtain ⟨deeds, result, m₁, s₁⟩ := way
  cases result with
  | error crash => cases ok
  | ok a =>
    cases ok
    rfl

theorem incrementTimes_eq_advancing (k : Nat) (target : UInt64) (m : Meter κ δ) (s : σ)
    (distance : target.toNat = m.count.toNat + k) :
    m.incrementTimes k s = (m.advancing target s).outcome := by
  induction k generalizing m s with
  | zero =>
    rw [UInt64.toNat_inj.mp distance, advancing_self]
    rfl
  | succ k rest =>
    have room : m.count ≠ Count.greatest := by
      intro full
      have bound := Count.toNat_le_greatest target
      rw [distance, full] at bound
      omega
    have next := Count.toNat_succ m.count room
    have first : m.count ≤ m.count + 1 := UInt64.le_iff_toNat_le.mpr (by omega)
    have second : m.count + 1 ≤ target := UInt64.le_iff_toNat_le.mpr (by omega)
    rw [incrementTimes, increment_eq_advancing m s room, ← advancing_trans _ _ m s first second]
    rcases outcome : (m.advancing (m.count + 1) s).outcome with ⟨crash | ⟨⟩, m₁, s₁⟩
    · rw [andThen_error outcome]
    · rw [andThen_ok outcome]
      have reached := advancing_count outcome
      exact rest m₁ s₁ (by rw [distance, reached, next]; omega)

/-- Counting many records is counting them one by one, as far as there are counts left: the same
result and meter in the same surroundings, which may remember all that they were asked. A crash on
the way is the crash of a report, never that of the count. -/
theorem incrementBy_eq_incrementTimes (m : Meter κ δ) (n : UInt64) (s : σ) :
    m.incrementBy n s =
        m.incrementTimes (min n.toNat (Count.greatest.toNat - m.count.toNat)) s ∧
      ∀ crash m' s', m.incrementBy n s = (.error crash, m', s') →
        ∃ (m₀ : Meter κ δ) (s₀ : σ), m.count < m₀.count ∧
          ((m₀.call .periodic s₀).delivery = .crashed crash ∨ m₀.reports = Count.greatest) ∧
          m₀.report s₀ = (.error crash, m', s') := by
  have target := Count.toNat_plusUpToGreatest m.count n
  have bound := Count.toNat_le_greatest m.count
  constructor
  · rw [← incrementingBy_outcome]
    exact (incrementTimes_eq_advancing _ _ m s (by rw [target]; omega)).symm
  · intro crash m' s' crashed
    rw [← incrementingBy_outcome] at crashed
    obtain ⟨m₀, s₀, member, reported⟩ := reportingAt_error _ m s (advancing_error crashed)
    refine ⟨m₀, s₀, ((mem_boundaries _ _ _ _).mp member).1, ?_, reported⟩
    rcases report_cases .periodic m₀ s₀ with ⟨_, _, _, _, ok⟩ | ⟨_, _, _, error, cause⟩
    · rw [ok] at reported
      cases reported
    · rw [error] at reported
      cases reported
      exact cause

end Cadence.Meter
