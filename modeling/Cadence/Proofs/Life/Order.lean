import Cadence.Proofs.Life.Tally
import Cadence.Proofs.Life.Timing
import Cadence.Proofs.Time.Seconds

namespace Cadence

open Binary64

variable {σ κ δ : Type}

structure Climb (low : UInt64) (deeds : List (Deed δ)) (high : UInt64) : Prop where
  forth : low ≤ high
  within : ∀ call ∈ calls deeds, low ≤ call.report.count ∧ call.report.count ≤ high
  sorted : (calls deeds).Pairwise fun earlier later => earlier.report.count ≤ later.report.count

namespace Climb

theorem silent {deeds : List (Deed δ)} (count : UInt64) (unreported : calls deeds = []) :
    Climb count deeds count where
  forth := UInt64.le_refl count
  within := by simp [unreported]
  sorted := by simp [unreported]

theorem trans {low mid high : UInt64} {first second : List (Deed δ)}
    (before : Climb low first mid) (after : Climb mid second high) :
    Climb low (first ++ second) high where
  forth := UInt64.le_trans before.forth after.forth
  within := by
    intro call member
    rw [calls_append, List.mem_append] at member
    rcases member with former | latter
    · obtain ⟨above, below⟩ := before.within call former
      exact ⟨above, UInt64.le_trans below after.forth⟩
    · obtain ⟨above, below⟩ := after.within call latter
      exact ⟨UInt64.le_trans before.forth above, below⟩
  sorted := by
    rw [calls_append, List.pairwise_append]
    refine ⟨before.sorted, after.sorted, ?_⟩
    intro earlier former later latter
    exact UInt64.le_trans (before.within earlier former).2 (after.within later latter).1

theorem passage {m m' : Meter κ δ} {deeds : List (Deed δ)} (passage : Passage m deeds m') :
    Climb m.count deeds m'.count where
  forth := passage.forth
  within := by
    intro call member
    have boundary := List.mem_map_of_mem (f := (·.report.count)) member
    rw [passage.counts] at boundary
    obtain ⟨above, reached, _⟩ := (mem_boundaries _ _ _ _).mp boundary
    exact ⟨UInt64.le_of_lt above, reached⟩
  sorted := by
    have increasing := boundaries_increasing m.interval m.count m'.count
    rw [← passage.counts, List.pairwise_map] at increasing
    exact increasing.imp UInt64.le_of_lt

variable [Surroundings σ κ δ]

theorem report (occasion : Occasion) (m : Meter κ δ) (s : σ) :
    Climb m.count [.report (m.call occasion s)] (m.report s).2.1.count := by
  obtain ⟨last, reports, frame⟩ := m.report_frame s
  rw [frame]
  constructor
  case forth => exact UInt64.le_refl m.count
  case within =>
    intro call member
    cases List.mem_singleton.mp member
    exact ⟨UInt64.le_refl m.count, UInt64.le_refl m.count⟩
  case sorted => exact List.pairwise_singleton _ _

theorem marking (r : Report) (m : Meter κ δ) (s : σ) :
    Climb m.count (m.marking r s).deeds (m.marking r s).outcome.2.1.count := by
  rcases Meter.marking_cases r m s with ⟨crash, _, ended⟩ | ⟨_, ended⟩
  · rw [ended]
    exact silent m.count rfl
  · rw [ended]
    exact silent m.count rfl

theorem closing (m : Meter κ δ) (s : σ) :
    Climb m.count (m.closing s).deeds (m.closing s).outcome.2.1.count := by
  by_cases shut : m.finished = true
  · rw [Meter.closing_finished shut]
    exact silent m.count rfl
  · have last := report .closing m s
    rw [Meter.closing_open shut]
    rcases m.report_cases .closing s with ⟨_, _, _, s', ok⟩ | ⟨_, crash, s', error, _⟩
    · rw [Meter.reporting_andThen_ok _ ok]
      rw [ok] at last
      exact last.trans (marking _ _ s')
    · rw [Meter.reporting_andThen_error _ error]
      rw [error] at last
      exact last

theorem step (step : Step σ δ) (m : Meter κ δ) (s : σ) :
    Climb m.count (step.course m s).deeds (step.run m s).2.1.count := by
  rw [← step.course_outcome]
  cases step with
  | increment => exact passage (m.incrementing_passage s)
  | incrementBy n => exact passage (m.incrementingBy_passage n s)
  | report => exact report .requested m s
  | close => exact closing m s
  | redirect destination => exact silent m.count rfl
  | meanwhile change => exact silent m.count rfl

theorem run (steps : List (Step σ δ)) (life : Meter κ δ × σ) :
    Climb life.1.count (Step.journal steps life) (Step.through steps life).1.count := by
  induction steps generalizing life with
  | nil => exact silent life.1.count rfl
  | cons next steps rest => exact (step next life.1 life.2).trans (rest _)

end Climb

/-- The longer it takes to get through an interval, the lower the rate. -/
theorem Interval.rate_antitone (interval : Interval) {d e : Span} (shorter : d.nanos ≤ e.nanos) :
    ofNat interval.records.toNat / e.seconds ≤ ofNat interval.records.toNat / d.seconds := by
  have positive := wholeCode_pos interval.records_pos
  have finite := wholeCode_lt interval.records.toNat_lt.le
  rw [Span.seconds_eq, Span.seconds_eq, ofNat_eq]
  exact div_antitone positive finite (Span.secondsCode_mono shorter)
    (nearestCode_le_infinityCode _ _)

namespace Timed

variable {before after : Meter κ δ × Minuted σ κ δ} {deeds : List (Deed δ)}

theorem rate_of_window (timed : Timed before deeds after) {window : Span} {call : Call δ}
    (member : (window, call) ∈ (windows before.1.last (instants deeds)).zip (calls deeds)) :
    call.report.rate = ofNat before.1.interval.records.toNat / window.seconds := by
  obtain ⟨k, here⟩ := List.mem_iff_getElem?.mp member
  obtain ⟨passed, made⟩ := List.getElem?_zip_eq_some.mp here
  have rate := congrArg (·[k]?) timed.rates
  simpa only [List.getElem?_map, made, passed, Option.map_some, Option.some.injEq] using rate

theorem elapsed_sorted (timed : Timed before deeds after)
    (forth : (instants deeds).Pairwise fun earlier later => earlier.nanos ≤ later.nanos) :
    (calls deeds).Pairwise fun earlier later => earlier.report.elapsed ≤ later.report.elapsed := by
  have sorted : ((calls deeds).map (·.report.elapsed)).Pairwise (· ≤ ·) := by
    rw [timed.elapsed, List.pairwise_map]
    apply forth.imp
    intro earlier later passed
    apply Span.seconds_mono
    exact Nat.sub_le_sub_right passed _
  exact List.pairwise_map.mp sorted

end Timed

/-- Whatever a meter does and whatever crashes, its reports count up, and its elapsed times go up
while its clock does. A longer time between two reports never makes for a higher rate: seconds are
monotone in the exact time, and the interval over them is antitone. -/
theorem order_of_run [Surroundings σ κ δ] (interval : Interval) (destination : Option δ)
    (clock : κ) (s : σ) (steps : List (Step σ δ)) :
    let start := Meter.begin interval destination clock (Minuted.fresh s)
    let deeds := Step.journal (steps.map Step.minuted) start
    let life : Meter κ δ × Minuted σ κ δ := Step.through (steps.map Step.minuted) start
    let timed := (windows start.1.start (instants deeds)).zip (calls deeds)
    let rate (window : Span) : Binary64 := ofNat interval.records.toNat / window.seconds
    (calls deeds).Pairwise (fun earlier later => earlier.report.count ≤ later.report.count) ∧
    ((readings life.2.minutes).Pairwise (fun earlier later => earlier.2.nanos ≤ later.2.nanos) →
      (calls deeds).Pairwise fun earlier later => earlier.report.elapsed ≤ later.report.elapsed) ∧
    (∀ brief ∈ timed, ∀ long ∈ timed, brief.1.nanos ≤ long.1.nanos →
      long.2.report.rate ≤ brief.2.report.rate) ∧
    (∀ d e : Span, d.nanos ≤ e.nanos → d.seconds ≤ e.seconds ∧ rate e ≤ rate d) ∧
    (∀ (m : Meter κ δ) (s : Minuted σ κ δ), (m.retire s).2 = (Step.close.run m s).2.2) := by
  intro start deeds life timed rate
  have run : Timed start deeds life := .of_run interval destination clock s steps
  refine ⟨?_, ?_, ?_, ?_, Meter.retire_surroundings⟩
  · exact (Climb.run (steps.map Step.minuted) start).sorted
  · intro forth
    apply run.elapsed_sorted
    have read := run.readings
    rw [read, List.pairwise_append, List.pairwise_map] at forth
    exact forth.2.1
  · intro brief short long slow longer
    rw [run.rate_of_window short, run.rate_of_window slow]
    exact interval.rate_antitone longer
  · intro d e shorter
    exact ⟨Span.seconds_mono shorter, interval.rate_antitone shorter⟩

/-- Each report on a clock that shows the squares comes after a longer time than the one before. -/
theorem order_of_run_squares :
    let start : _ × Minuted (Parted Clocks.squares Writers.refusing) Unit Unit :=
      Meter.begin ⟨2, by decide⟩ none () (.fresh ⟨0, ()⟩)
    let steps : List (Step (Minuted (Parted Clocks.squares Writers.refusing) Unit Unit) Unit) :=
      [.report, .report]
    let deeds := Step.journal steps start
    let timed := (windows start.1.start (instants deeds)).zip (calls deeds)
    (readings (Step.through steps start).2.minutes).Pairwise
        (fun earlier later => earlier.2.nanos ≤ later.2.nanos) ∧
      ∃ first second : Call Unit, timed = [(⟨1000000000⟩, first), (⟨3000000000⟩, second)] ∧
        first.report.elapsed ≤ second.report.elapsed ∧ second.report.rate ≤ first.report.rate := by
  intro start steps deeds timed
  let middle := (start.1.report start.2).2
  have two : middle.2.state.time = 2 := time_report start.1 start.2
  have times : instants deeds = [⟨1000000000⟩, ⟨4000000000⟩] := by
    have read : instants deeds = [1, middle.2.state.time].map
        fun n => ⟨n * n * nanosPerSecond⟩ := rfl
    rw [read, two]
    rfl
  have forth : (readings (Step.through steps start).2.minutes).Pairwise
      fun earlier later => earlier.2.nanos ≤ later.2.nanos := by
    have run : Timed start deeds (Step.through steps start) :=
      .of_run ⟨2, by decide⟩ none () (⟨0, ()⟩ : Parted Clocks.squares Writers.refusing)
        [.report, .report]
    rw [run.readings, times]
    decide
  let first := start.1.call .requested start.2
  let second := middle.1.call .requested middle.2
  have made : calls deeds = [first, second] := rfl
  have both : timed = [(⟨1000000000⟩, first), (⟨3000000000⟩, second)] := by
    simp only [timed, made, times]
    rfl
  obtain ⟨_, elapsed, rates, _⟩ := order_of_run ⟨2, by decide⟩ none ()
    (⟨0, ()⟩ : Parted Clocks.squares Writers.refusing) [.report, .report]
  have later : (calls deeds).Pairwise
    fun earlier later => earlier.report.elapsed ≤ later.report.elapsed := elapsed forth
  have slower : ∀ brief ∈ timed, ∀ long ∈ timed, brief.1.nanos ≤ long.1.nanos →
    long.2.report.rate ≤ brief.2.report.rate := rates
  rw [made] at later
  rw [both] at slower
  refine ⟨forth, first, second, both, ?_, ?_⟩
  · exact List.rel_of_pairwise_cons later (List.mem_singleton_self second)
  · exact slower (⟨1000000000⟩, first) (by simp) (⟨3000000000⟩, second) (by simp) (by decide)

end Cadence
