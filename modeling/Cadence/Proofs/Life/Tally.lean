import Cadence.Proofs.Emission.Outlet
import Cadence.Proofs.Life.Step

namespace Cadence

variable {σ κ δ : Type}

def periodicCounts (deeds : List (Deed δ)) : List UInt64 :=
  ((calls deeds).filter (·.occasion = .periodic)).map (·.report.count)

theorem periodicCounts_append (first second : List (Deed δ)) :
    periodicCounts (first ++ second) = periodicCounts first ++ periodicCounts second := by
  simp [periodicCounts]

namespace Step

def records : Step σ δ → Nat
  | .increment => 1
  | .incrementBy n => n.toNat
  | _ => 0

def isReport : Step σ δ → Bool
  | .report => true
  | _ => false

end Step

structure Tallied (interval : Interval) (steps : List (Step σ δ)) (deeds : List (Deed δ))
    (m : Meter κ δ) : Prop where
  unchanged : m.interval = interval
  periodic : periodicCounts deeds = boundaries interval 0 m.count
  reports : m.reports.toNat = (calls deeds).countP (·.returned)
  requested : (calls deeds).countP (·.occasion = .requested) = steps.countP Step.isReport
  records : (∀ call ∈ calls deeds, call.returned = true) →
    m.count.toNat = min Count.greatest.toNat (steps.map Step.records).sum
  closings : (∀ call ∈ calls deeds, call.returned = true) →
    (∀ crash, .crashed crash ∉ marks deeds) →
    (calls deeds).countP (·.occasion = .closing) = if m.finished then 1 else 0

namespace Tallied

variable {interval : Interval} {steps : List (Step σ δ)} {deeds : List (Deed δ)} {m m' : Meter κ δ}

theorem passage (tallied : Tallied interval steps deeds m) {step : Step σ δ}
    {more : List (Deed δ)} (passage : Passage m more m') (unasked : step.isReport = false)
    (complete : (∀ call ∈ calls more, call.returned = true) →
      m'.count.toNat = min Count.greatest.toNat (m.count.toNat + step.records)) :
    Tallied interval (steps ++ [step]) (deeds ++ more) m' := by
  obtain ⟨count, last, reports, frame⟩ := passage.frame
  have others (occasion : Occasion) (other : occasion ≠ .periodic) :
      (calls more).countP (·.occasion = occasion) = 0 := by
    rw [List.countP_eq_zero]
    intro call member
    simpa [passage.periodic call member] using other.symm
  constructor
  case unchanged => rw [frame]; exact tallied.unchanged
  case periodic =>
    have all : (calls more).filter (·.occasion = .periodic) = calls more :=
      List.filter_eq_self.mpr fun call member => by simp [passage.periodic call member]
    have start : (0 : UInt64) ≤ m.count := UInt64.le_iff_toNat_le.mpr (Nat.zero_le _)
    rw [periodicCounts_append, tallied.periodic, periodicCounts, all, passage.counts,
      tallied.unchanged, boundaries_append _ _ _ _ start passage.forth]
  case reports => rw [passage.reports, tallied.reports, calls_append, List.countP_append]
  case requested =>
    rw [calls_append, List.countP_append, tallied.requested, others .requested (by decide)]
    simp [unasked]
  case records =>
    intro came
    simp only [calls_append, List.mem_append] at came
    have before := tallied.records fun call member => came call (.inl member)
    have after := complete fun call member => came call (.inr member)
    rw [after, before, List.map_append, List.sum_append, List.map_singleton, List.sum_singleton]
    omega
  case closings =>
    intro came written
    simp only [calls_append, List.mem_append] at came
    rw [marks_append, passage.unmarked, List.append_nil] at written
    have before := tallied.closings (fun call member => came call (.inl member)) written
    rw [calls_append, List.countP_append, before, others .closing (by decide), frame]
    rfl

theorem idle (tallied : Tallied interval steps deeds m) {step : Step σ δ}
    (unasked : step.isReport = false) (none : step.records = 0) (destination : Option δ) :
    Tallied interval (steps ++ [step]) (deeds ++ []) { m with destination } := by
  rw [List.append_nil]
  constructor
  case unchanged => exact tallied.unchanged
  case periodic => exact tallied.periodic
  case reports => exact tallied.reports
  case requested => simp [tallied.requested, unasked]
  case records =>
    intro came
    rw [tallied.records came]
    simp [none]
  case closings => exact tallied.closings

variable [Surroundings σ κ δ]

theorem reported (tallied : Tallied interval steps deeds m) (step : Step σ δ)
    (occasion : Occasion) (aperiodic : occasion ≠ .periodic) (s : σ) (after : List (Deed δ))
    (finished : Bool) (unreported : calls after = []) (none : step.records = 0)
    (asked : step.isReport = decide (occasion = .requested))
    (closes : (m.call occasion s).returned = true → (∀ crash, .crashed crash ∉ marks after) →
      (if m.finished then 1 else 0) + (if occasion = .closing then 1 else 0) =
        if finished then 1 else 0) :
    Tallied interval (steps ++ [step]) (deeds ++ .report (m.call occasion s) :: after)
      { (m.report s).2.1 with finished } := by
  obtain ⟨last, reports, frame⟩ := m.report_frame s
  have counted := m.report_reports occasion s
  have asks : (m.call occasion s).occasion = occasion := rfl
  rw [frame] at counted ⊢
  have all : calls (deeds ++ .report (m.call occasion s) :: after) =
      calls deeds ++ [m.call occasion s] := by
    rw [calls_append, calls_report, unreported]
  constructor
  case unchanged => exact tallied.unchanged
  case periodic =>
    rw [periodicCounts, all, List.filter_append, List.map_append]
    simpa [asks, aperiodic, periodicCounts] using tallied.periodic
  case reports =>
    rw [all, List.countP_append, ← tallied.reports, List.countP_singleton]
    exact counted
  case requested =>
    rw [all, List.countP_append, tallied.requested, List.countP_append, List.countP_singleton,
      List.countP_singleton, asks, asked]
  case records =>
    intro came
    simp only [all, List.mem_append] at came
    rw [tallied.records fun call member => came call (.inl member)]
    simp [none]
  case closings =>
    intro came written
    simp only [all, List.mem_append, List.mem_singleton] at came
    simp only [marks_append, marks_report, List.mem_append, not_or] at written
    have before := tallied.closings (fun call member => came call (.inl member))
      fun crash => (written crash).1
    have here := closes (came _ (.inr rfl)) fun crash => (written crash).2
    rw [all, List.countP_append, before, List.countP_singleton, asks, ← here]
    simp

theorem close (tallied : Tallied interval steps deeds m) (s : σ) :
    Tallied interval (steps ++ [.close]) (deeds ++ (m.closing s).deeds)
      (m.closing s).outcome.2.1 := by
  by_cases shut : m.finished = true
  · rw [Meter.closing_finished shut]
    exact tallied.idle rfl rfl m.destination
  · rw [Meter.closing_open shut]
    have report := fun after finished unreported =>
      tallied.reported .close .closing (by decide) s after finished
        unreported rfl rfl
    rcases m.report_cases .closing s with ⟨_, _, _, s', ok⟩ | ⟨left, crash, s', error, _⟩
    · rw [Meter.reporting_andThen_ok _ ok]
      rw [ok] at report
      rcases Meter.marking_cases (m.call .closing s).report _ s' with
        ⟨crash, lost, ended⟩ | ⟨_, ended⟩
      · rw [ended]
        apply report _ m.finished rfl
        intro _ written
        exact absurd (List.mem_singleton.mpr lost.symm) (written crash)
      · rw [ended]
        apply report _ true rfl
        intro _ _
        simp [shut]
    · rw [Meter.reporting_andThen_error _ error]
      rw [error] at report
      apply report [] m.finished rfl
      intro came
      rw [left] at came
      cases came

theorem step (tallied : Tallied interval steps deeds m) (step : Step σ δ) (s : σ) :
    Tallied interval (steps ++ [step]) (deeds ++ (step.course m s).deeds) (step.run m s).2.1 := by
  rw [← step.course_outcome]
  cases step with
  | increment =>
    exact tallied.passage (m.incrementing_passage s) rfl (m.incrementing_completes s)
  | incrementBy n =>
    exact tallied.passage (m.incrementingBy_passage n s) rfl (m.incrementingBy_completes n s)
  | report =>
    have reported := tallied.reported .report .requested (by decide) s []
      m.finished rfl rfl rfl fun _ _ => rfl
    obtain ⟨last, reports, frame⟩ := m.report_frame s
    have ended : (Step.report.course m s).outcome.2.1 = { m with last, reports } := frame
    rw [ended]
    rw [frame] at reported
    exact reported
  | close => exact tallied.close s
  | redirect destination => exact tallied.idle rfl rfl destination
  | meanwhile change => exact tallied.idle rfl rfl m.destination

theorem begun (interval : Interval) (destination : Option δ) (clock : κ) (s : σ) :
    Tallied interval ([] : List (Step σ δ)) [] (Meter.begin interval destination clock s).1 := by
  constructor
  case unchanged => rfl
  case periodic => simp [periodicCounts, boundaries, multiples, Meter.begin]
  case reports => rfl
  case requested => rfl
  case records => simp [Meter.begin]
  case closings => simp [Meter.begin]

theorem run (interval : Interval) (destination : Option δ) (clock : κ) (s : σ)
    (steps : List (Step σ δ)) :
    Tallied interval steps (Step.journal steps (Meter.begin interval destination clock s))
      (Step.through steps (Meter.begin interval destination clock s)).1 :=
  Step.invariant_of_run (fun steps deeds life => Tallied interval steps deeds life.1) _
    (begun interval destination clock s) (fun _ _ step _ s tallied => tallied.step step s) steps

end Tallied

theorem countP_occasions (made : List (Call δ)) :
    made.length = made.countP (·.occasion = .periodic) + made.countP (·.occasion = .requested) +
      made.countP (·.occasion = .closing) := by
  induction made with
  | nil => rfl
  | cons call made rest =>
    simp only [List.length_cons, List.countP_cons, rest]
    cases call.occasion <;> simp <;> omega

/-- Whatever steps are taken and whatever crashes, a meter reports periodically at the multiples of
its interval up to its count, each once and in their order, and counts the reports that came back.
If all did, the count is the sum of the records asked for, as far as it is a count; if moreover no
marker crashed, every report is periodic, asked for or the last. -/
theorem tally_of_run [Surroundings σ κ δ] (interval : Interval) (destination : Option δ)
    (clock : κ) (s : σ) (steps : List (Step σ δ)) :
    let start := Meter.begin interval destination clock s
    let deeds := Step.journal steps start
    let m := (Step.through steps start).1
    (∀ (step : Step σ δ) (m : Meter κ δ) (s : σ), (step.course m s).outcome = step.run m s) ∧
    (periodicCounts deeds).Pairwise (· < ·) ∧
    (∀ c, c ∈ periodicCounts deeds ↔ 0 < c ∧ c ≤ m.count ∧ interval.records.toNat ∣ c.toNat) ∧
    m.reports.toNat = (calls deeds).countP (·.returned) ∧
    ((∀ call ∈ calls deeds, call.returned = true) →
      m.count.toNat = min Count.greatest.toNat (steps.map Step.records).sum) ∧
    ((∀ call ∈ calls deeds, call.returned = true) → (∀ crash, .crashed crash ∉ marks deeds) →
      m.reports.toNat = m.count.toNat / interval.records.toNat + steps.countP Step.isReport +
        if m.finished then 1 else 0) ∧
    (m.count = Count.greatest → ∀ s : σ, m.increment s = (.error .countOverflow, m, s)) := by
  intro start deeds m
  have tallied : Tallied interval steps deeds m := Tallied.run interval destination clock s steps
  refine ⟨Step.course_outcome, ?_, ?_, tallied.reports, tallied.records, ?_, ?_⟩
  · rw [tallied.periodic]
    exact boundaries_increasing _ _ _
  · rw [tallied.periodic]
    exact mem_boundaries _ _ _
  · intro came written
    have all : (calls deeds).countP (·.returned) = (calls deeds).length :=
      List.countP_eq_length.mpr came
    have periodic : (calls deeds).countP (·.occasion = .periodic) =
        m.count.toNat / interval.records.toNat := by
      rw [← length_boundaries, ← tallied.periodic, periodicCounts, List.length_map,
        List.countP_eq_length_filter]
    rw [tallied.reports, all, countP_occasions, periodic, tallied.requested,
      tallied.closings came written]
  · intro full s
    rw [Meter.increment, if_pos full]

open Session

/-- A pipe takes the last report and crashes at the marker: the report counts, and the meter is not
finished. -/
theorem not_reports_by_finished :
    let pipe := Outlet.pipe { Faults.none with limit := some 45, refusal := .crashes }
    let rig := { Rig.empty with clocks := #[.manual Rig.origin], outlets := #[pipe] }
    let start := Meter.begin ⟨1, by decide⟩ (some 0) (.numbered 0) rig
    let steps : List (Step Rig Nat) := [.close]
    let m := (Step.through steps start).1
    (∀ call ∈ calls (Step.journal steps start), call.returned = true) ∧
      m.reports.toNat ≠ m.count.toNat / m.interval.records.toNat + steps.countP Step.isReport +
        if m.finished then 1 else 0 := by
  intro pipe rig start steps m
  have place := Rig.outletAt 0
  have here : start.2.outlets[0]? = some pipe := rfl
  have written : (("\r" :: (start.1.reportAt Rig.origin).pieces).foldlM Outlet.afterWhole? pipe).any
      (fun o => o.flushReply = .done ∧
        o.afterFlush.reply (utf8 Meter.doneMarker) = .crashed (.raised "writer panicked")) := by
    decide +kernel
  obtain ⟨o, whole, after⟩ := (Option.any_eq_true _ _).mp written
  obtain ⟨flushed, refused⟩ : o.flushReply = .done ∧
    o.afterFlush.reply (utf8 Meter.doneMarker) = .crashed (.raised "writer panicked") := by
    simpa using after
  have line : (start.1.line start.2).1 = .done ∧
      (start.1.line start.2).2.outlets[0]? = some o.afterFlush := by
    rw [← flushed]
    exact place.emit_whole _ (s := Surroundings.log _ _) here whole
  have delivered (crash : Crash) : (start.1.line start.2).1 ≠ .crashed crash := by
    simp [line.1]
  have lost : (emit (some 0) [Meter.doneMarker]
      (Meter.noting .reportFailed (start.1.line start.2))).1 = .crashed (.raised "writer panicked") := by
    rw [Meter.noting_done _ line.1]
    exact place.emit_crashed [] (b := 46) rfl line.2 refused
  obtain ⟨came, closing, s', ended⟩ :=
    start.1.closing_unmarked start.2 (by decide) (by decide) delivered lost
  have deeds : Step.journal steps start = (start.1.closing start.2).deeds ++ [] := rfl
  have after : m = (start.1.close start.2).2.1 := rfl
  rw [after, deeds, closing, ← Meter.closing_outcome, ended]
  constructor
  · intro call member
    cases List.mem_singleton.mp member
    exact came
  · change (start.1.reports + 1).toNat ≠ start.1.count.toNat / start.1.interval.records.toNat +
      steps.countP Step.isReport + if start.1.finished then 1 else 0
    decide

end Cadence
