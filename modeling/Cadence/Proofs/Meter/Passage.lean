import Cadence.Proofs.Meter.Bulk

namespace Cadence

variable {σ κ δ : Type}

theorem boundaries_cons {interval : Interval} {lo hi b : UInt64} {rest : List UInt64}
    (first : boundaries interval lo hi = b :: rest) :
    lo ≤ b ∧ boundaries interval lo b = [b] ∧ boundaries interval b hi = rest := by
  have member : b ∈ boundaries interval lo hi := by simp [first]
  obtain ⟨above, reached, divides⟩ := (mem_boundaries _ _ _ _).mp member
  have before := UInt64.le_of_lt above
  have parts := boundaries_append interval lo b hi before reached
  have increasing := boundaries_increasing interval lo b
  have last : b ∈ boundaries interval lo b :=
    (mem_boundaries _ _ _ _).mpr ⟨above, UInt64.le_refl b, divides⟩
  rw [first] at parts
  refine ⟨before, ?_⟩
  cases front : boundaries interval lo b with
  | nil =>
    rw [front] at last
    cases last
  | cons c others =>
    rw [front, List.cons_append] at parts
    obtain ⟨same, parts⟩ := List.cons_eq_cons.mp parts
    subst same
    rw [front, List.pairwise_cons] at increasing
    have alone : others = [] := by
      apply List.eq_nil_iff_forall_not_mem.mpr
      intro d other
      have beyond := increasing.1 d other
      have within : d ∈ boundaries interval lo c := by simp [front, other]
      exact UInt64.not_lt.mpr ((mem_boundaries _ _ _ _).mp within).2.1 beyond
    subst alone
    exact ⟨rfl, parts⟩

/-- What happens to a meter as it counts: one periodic report at each boundary between the count
before and the count after, whether it ends as intended or by a crash. -/
structure Passage (m : Meter κ δ) (deeds : List (Deed δ)) (m' : Meter κ δ) : Prop where
  frame : ∃ count last reports, m' = { m with count, last, reports }
  forth : m.count ≤ m'.count
  counts : (calls deeds).map (·.report.count) = boundaries m.interval m.count m'.count
  periodic : ∀ call ∈ calls deeds, call.occasion = .periodic
  unmarked : marks deeds = []
  reports : m'.reports.toNat = m.reports.toNat + (calls deeds).countP (·.returned)

namespace Passage

theorem stay (m : Meter κ δ) : Passage m [] m where
  frame := ⟨_, _, _, rfl⟩
  forth := UInt64.le_refl _
  counts := by simp [calls, boundaries, multiples]
  periodic := by simp [calls]
  unmarked := rfl
  reports := by simp [calls]

theorem trans {m m₁ m₂ : Meter κ δ} {first second : List (Deed δ)}
    (before : Passage m first m₁) (after : Passage m₁ second m₂) :
    Passage m (first ++ second) m₂ where
  frame := by
    obtain ⟨_, _, _, rfl⟩ := before.frame
    obtain ⟨_, _, _, rfl⟩ := after.frame
    exact ⟨_, _, _, rfl⟩
  forth := UInt64.le_trans before.forth after.forth
  counts := by
    have interval : m₁.interval = m.interval := by
      obtain ⟨_, _, _, rfl⟩ := before.frame
      rfl
    rw [calls_append, List.map_append, before.counts, after.counts, interval,
      boundaries_append _ _ _ _ before.forth after.forth]
  periodic := by
    intro call member
    rw [calls_append, List.mem_append] at member
    exact member.elim (before.periodic call) (after.periodic call)
  unmarked := by rw [marks_append, before.unmarked, after.unmarked, List.nil_append]
  reports := by rw [after.reports, before.reports, calls_append, List.countP_append, Nat.add_assoc]

theorem skip (m : Meter κ δ) (target : UInt64) (forth : m.count ≤ target)
    (none : boundaries m.interval m.count target = []) :
    Passage m [] { m with count := target } where
  frame := ⟨_, _, _, rfl⟩
  forth := forth
  counts := none.symm
  periodic := by simp [calls]
  unmarked := rfl
  reports := by simp [calls]

variable [Surroundings σ κ δ]

theorem boundary (m : Meter κ δ) (b : UInt64) (s : σ) (forth : m.count ≤ b)
    (next : boundaries m.interval m.count b = [b]) :
    Passage m [.report ({ m with count := b }.call .periodic s)]
      ({ m with count := b }.report s).2.1 := by
  have counted := Meter.report_reports .periodic { m with count := b } s
  obtain ⟨last, reports, frame⟩ := Meter.report_frame { m with count := b } s
  rw [frame] at counted ⊢
  exact {
    frame := ⟨b, last, reports, rfl⟩
    forth := forth
    counts := next.symm
    periodic := by simp [calls, Meter.call]
    unmarked := rfl
    reports := by simpa [calls, List.countP_singleton] using counted }

end Passage

namespace Meter

open Course

variable [Surroundings σ κ δ]

theorem advancing_passage (m : Meter κ δ) (target : UInt64) (s : σ) (forth : m.count ≤ target) :
    Passage m (m.advancing target s).deeds (m.advancing target s).outcome.2.1 := by
  rw [advancing]
  -- the boundaries still ahead, of which each report takes the first
  induction ahead : boundaries m.interval m.count target generalizing m s with
  | nil =>
    rw [reportingAt, quiet_ok_andThen]
    exact .skip m target forth ahead
  | cons b bs rest =>
    obtain ⟨before, next, others⟩ := boundaries_cons ahead
    have reached : b ∈ boundaries m.interval m.count target := by simp [ahead]
    have first := Passage.boundary m b s before next
    rw [reportingAt, andThen_assoc]
    rcases report_cases .periodic { m with count := b } s with
      ⟨_, _, _, s', ok⟩ | ⟨_, crash, s', error, _⟩
    · rw [reporting_andThen_ok _ ok]
      rw [ok] at first
      exact first.trans (rest _ s' ((mem_boundaries _ _ _ _).mp reached).2.1 others)
    · rw [reporting_andThen_error _ error]
      rw [error] at first
      exact first

theorem reportingAt_completes (cs : List UInt64) (m : Meter κ δ) (s : σ)
    (came : ∀ call ∈ calls (m.reportingAt cs s).deeds, call.returned = true) :
    ∃ m' s', (m.reportingAt cs s).outcome = (.ok (), m', s') := by
  induction cs generalizing m s with
  | nil => exact ⟨m, s, rfl⟩
  | cons c cs rest =>
    rw [reportingAt] at came ⊢
    rcases report_cases .periodic { m with count := c } s with
      ⟨_, _, _, s', ok⟩ | ⟨left, crash, s', error, _⟩
    · rw [reporting_andThen_ok _ ok] at came ⊢
      exact rest _ s' fun call member => came call (by simp_all [calls])
    · rw [reporting_andThen_error _ error] at came
      have back := came _ (by simp [calls]; rfl)
      rw [left] at back
      cases back

theorem advancing_completes (m : Meter κ δ) (target : UInt64) (s : σ)
    (came : ∀ call ∈ calls (m.advancing target s).deeds, call.returned = true) :
    (m.advancing target s).outcome.2.1.count = target := by
  rw [(m.advancing_reports target s).1] at came
  obtain ⟨m', s', ok⟩ := reportingAt_completes _ m s came
  rw [advancing, andThen_ok ok]
  rfl

theorem incrementing_passage (m : Meter κ δ) (s : σ) :
    Passage m (m.incrementing s).deeds (m.incrementing s).outcome.2.1 := by
  by_cases full : m.count = Count.greatest
  · rw [incrementing, if_pos full]
    exact .stay m
  · have next := Count.toNat_succ m.count full
    rw [incrementing, if_neg full]
    exact m.advancing_passage _ s (UInt64.le_iff_toNat_le.mpr (by omega))

theorem incrementingBy_passage (n : UInt64) (m : Meter κ δ) (s : σ) :
    Passage m (m.incrementingBy n s).deeds (m.incrementingBy n s).outcome.2.1 := by
  have target := Count.toNat_plusUpToGreatest m.count n
  have bound := Count.toNat_le_greatest m.count
  exact m.advancing_passage _ s (UInt64.le_iff_toNat_le.mpr (by omega))

theorem incrementing_completes (m : Meter κ δ) (s : σ)
    (came : ∀ call ∈ calls (m.incrementing s).deeds, call.returned = true) :
    (m.incrementing s).outcome.2.1.count.toNat =
      min Count.greatest.toNat (m.count.toNat + 1) := by
  by_cases full : m.count = Count.greatest
  · rw [incrementing, if_pos full, full]
    exact congrArg UInt64.toNat full
  · have next := Count.toNat_succ m.count full
    have bound := Count.toNat_le_greatest (m.count + 1)
    rw [incrementing, if_neg full] at came ⊢
    rw [m.advancing_completes _ s came]
    omega

theorem incrementingBy_completes (n : UInt64) (m : Meter κ δ) (s : σ)
    (came : ∀ call ∈ calls (m.incrementingBy n s).deeds, call.returned = true) :
    (m.incrementingBy n s).outcome.2.1.count.toNat =
      min Count.greatest.toNat (m.count.toNat + n.toNat) := by
  rw [incrementingBy] at came ⊢
  rw [m.advancing_completes _ s came]
  exact Count.toNat_plusUpToGreatest m.count n

end Meter

end Cadence
