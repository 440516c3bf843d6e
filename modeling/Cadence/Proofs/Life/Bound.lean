import Cadence.Proofs.Life.Step

namespace Cadence

variable {σ κ δ : Type}

def Step.most : Step σ δ → Nat
  | .incrementBy n => n.toNat
  | _ => 1

variable [Surroundings σ κ δ]

theorem calls_reportingAt_le (cs : List UInt64) (m : Meter κ δ) (s : σ) :
    (calls (m.reportingAt cs s).deeds).length ≤ cs.length := by
  induction cs generalizing m s with
  | nil => exact Nat.le_refl 0
  | cons c cs rest =>
    rw [Meter.reportingAt, List.length_cons]
    rcases Meter.report_cases .periodic { m with count := c } s with
      ⟨_, _, _, s', ok⟩ | ⟨_, crash, s', error, _⟩
    · rw [Meter.reporting_andThen_ok _ ok, calls_report, List.length_cons]
      exact Nat.succ_le_succ (rest _ s')
    · rw [Meter.reporting_andThen_error _ error, calls_report, List.length_cons]
      exact Nat.succ_le_succ (Nat.zero_le _)

theorem calls_advancing_le (m : Meter κ δ) (target : UInt64) (s : σ) :
    (calls (m.advancing target s).deeds).length ≤ target.toNat - m.count.toNat := by
  rw [(m.advancing_reports target s).1]
  exact (calls_reportingAt_le _ m s).trans (length_boundaries_le _ _ _)

theorem calls_course_le (step : Step σ δ) (m : Meter κ δ) (s : σ) :
    (calls (step.course m s).deeds).length ≤ step.most := by
  cases step with
  | increment =>
    by_cases full : m.count = Count.greatest
    · have still : m.incrementing s = .quiet (.error .countOverflow, m, s) := if_pos full
      rw [Step.course, still]
      exact Nat.zero_le _
    · have bound := calls_advancing_le m (m.count + 1) s
      have next := Count.toNat_succ m.count full
      have going : m.incrementing s = m.advancing (m.count + 1) s := if_neg full
      rw [Step.course, going]
      exact bound.trans (by rw [next]; exact Nat.le_of_eq (Nat.add_sub_cancel_left _ _))
  | incrementBy n =>
    have bound := calls_advancing_le m (Count.plusUpToGreatest m.count n) s
    have target := Count.toNat_plusUpToGreatest m.count n
    exact bound.trans (by rw [target, Step.most]; omega)
  | report => exact Nat.le_refl 1
  | close =>
    by_cases shut : m.finished = true
    · rw [Step.course, Meter.closing_finished shut]
      exact Nat.zero_le _
    · rw [Step.course, Meter.closing_open shut]
      rcases m.report_cases .closing s with ⟨_, _, _, s', ok⟩ | ⟨_, crash, s', error, _⟩
      · rw [Meter.reporting_andThen_ok _ ok]
        exact Nat.le_refl 1
      · rw [Meter.reporting_andThen_error _ error]
        exact Nat.le_refl 1
  | redirect destination => exact Nat.zero_le 1
  | meanwhile change => exact Nat.zero_le 1

theorem calls_journal_le (steps : List (Step σ δ)) (life : Meter κ δ × σ) :
    (calls (Step.journal steps life)).length ≤ (steps.map Step.most).sum := by
  induction steps generalizing life with
  | nil => exact Nat.le_refl 0
  | cons step steps rest =>
    rw [Step.journal, calls_append, List.length_append, List.map_cons, List.sum_cons]
    exact Nat.add_le_add (calls_course_le step life.1 life.2) (rest _)

end Cadence
