import Cadence.Proofs.Life.Timing
import Cadence.Proofs.Time.Seconds

namespace Cadence

open Binary64

structure RateTells (previous now : Instant) (r : Report) : Prop where
  number : r.rate.isNaN = false
  positive : r.isMeasurable = true → 0 < r.rate.value
  measurable : r.isMeasurable = true ↔ previous.nanos < now.nanos
  infinite : r.rate = .infinity ↔ (now.since previous).nanos = 0

/-- Records in a window lie between one record in the longest window and the most records in the
shortest one, and neither rounds to zero or to infinity. -/
theorem rate_of_window {records : Nat} {window : Span} (some : 0 < records)
    (counted : records < 2 ^ 64) (passed : 0 < window.nanos)
    (fits : window.wholeSeconds < 2 ^ 64) :
    ∃ c, 0 < c ∧ c < infinityCode ∧ ofNat records / window.seconds = ofCode false c := by
  let longest : Span := ⟨2 ^ 64 * nanosPerSecond⟩
  have shorter : window.nanos ≤ longest.nanos := by
    simp only [longest, Span.wholeSeconds, nanosPerSecond] at fits ⊢
    omega
  have divisor := Span.secondsCode_pos passed
  have low : quotientCode (wholeCode 1) longest.secondsCode ≤
      quotientCode (wholeCode records) window.secondsCode :=
    quotientCode_mono (wholeCode_mono some) divisor (Span.secondsCode_mono shorter)
  have high : quotientCode (wholeCode records) window.secondsCode ≤
      quotientCode (wholeCode (2 ^ 64)) (Span.secondsCode ⟨1⟩) :=
    quotientCode_mono (wholeCode_mono counted.le) (by decide +kernel)
      (Span.secondsCode_mono passed)
  have least : 0 < quotientCode (wholeCode 1) longest.secondsCode := by decide +kernel
  have most : quotientCode (wholeCode (2 ^ 64)) (Span.secondsCode ⟨1⟩) < infinityCode := by
    decide +kernel
  refine ⟨_, least.trans_le low, high.trans_lt most, ?_⟩
  rw [Span.seconds_eq, ofNat_eq,
    div_ofCode (wholeCode_lt counted.le) divisor (Span.secondsCode_lt fits)]

theorem rate_of_no_window {records : Nat} (some : 0 < records) (counted : records < 2 ^ 64) :
    ofNat records / (⟨0⟩ : Span).seconds = infinity := by
  rw [Span.seconds_zero, ofNat_eq]
  exact div_zero (wholeCode_pos some) (wholeCode_lt counted.le)

theorem RateTells.of_rate {interval : Interval} {previous now : Instant} {r : Report}
    (fits : (now.since previous).wholeSeconds < 2 ^ 64)
    (rate : r.rate = ofNat interval.records.toNat / (now.since previous).seconds) :
    RateTells previous now r := by
  have counted := interval.records.toNat_lt
  have window : (now.since previous).nanos = now.nanos - previous.nanos := rfl
  rcases Nat.eq_zero_or_pos (now.since previous).nanos with none | passed
  · have still : now.since previous = ⟨0⟩ := congrArg Span.mk none
    have infinite : r.rate = .infinity := by
      rw [rate, still, rate_of_no_window interval.records_pos counted]
    have unmeasurable : r.isMeasurable = false := by
      rw [Report.isMeasurable, infinite]
      rfl
    constructor
    case number =>
      rw [infinite]
      rfl
    case positive =>
      intro measurable
      rw [unmeasurable] at measurable
      cases measurable
    case measurable =>
      rw [unmeasurable]
      simp only [Bool.false_eq_true, false_iff]
      omega
    case infinite => exact iff_of_true infinite none
  · obtain ⟨c, positive, finite, quotient⟩ :=
      rate_of_window interval.records_pos counted passed fits
    rw [quotient] at rate
    have measurable : r.isMeasurable = true := by
      rw [Report.isMeasurable, rate, isFinite_ofCode finite.le, decide_eq_true finite]
    constructor
    case number =>
      rw [rate]
      exact isNaN_ofCode finite.le
    case positive =>
      intro _
      rw [rate, value_ofCode finite.le]
      apply div_pos
      · exact_mod_cast unitsOfCode_pos positive
      · exact_mod_cast unitsPerOne_pos
    case measurable => exact iff_of_true measurable (by omega)
    case infinite =>
      refine iff_of_false ?_ passed.ne'
      intro infinite
      have unmeasurable : r.isMeasurable = false := by
        rw [Report.isMeasurable, infinite]
        rfl
      rw [measurable] at unmeasurable
      cases unmeasurable

theorem windows_getElem? {first previous now : Instant} {times : List Instant} {k : Nat}
    (before : (first :: times)[k]? = some previous) (here : times[k]? = some now) :
    (windows first times)[k]? = some (now.since previous) := by
  induction times generalizing first k with
  | nil => cases here
  | cons time times rest =>
    cases k with
    | zero =>
      cases before
      cases here
      rfl
    | succ k => exact rest before here

variable {σ κ δ : Type} [Surroundings σ κ δ]

/-- Whatever a meter has done, the rates it reports are positive numbers, and finite just if the
clock has moved on since the report before, or since the start if there was none. The seconds of a
span between two instants fit in 64 bits. -/
theorem rates_of_run (interval : Interval) (destination : Option δ) (clock : κ) (s : σ)
    (steps : List (Step σ δ)) :
    let start := Meter.begin interval destination clock (Minuted.fresh s)
    let deeds := Step.journal (steps.map Step.minuted) start
    let life : Meter κ δ × Minuted σ κ δ := Step.through (steps.map Step.minuted) start
    let first := start.1.start
    (∀ (k : Nat) (previous : Instant) (call : Call δ),
      (first :: instants deeds)[k]? = some previous → (calls deeds)[k]? = some call →
        (call.now.since previous).wholeSeconds < 2 ^ 64 →
          RateTells previous call.now call.report) ∧
    (∀ r, (life.1.report life.2).1 = .ok r →
      let previous := (instants deeds).getLastD first
      let now := (Surroundings.read clock life.2).1
      (now.since previous).wholeSeconds < 2 ^ 64 → RateTells previous now r) := by
  intro start deeds life first
  have timed : Timed start deeds life := .of_run interval destination clock s steps
  constructor
  · intro k previous call before here fits
    have now : (instants deeds)[k]? = some call.now := by
      rw [instants, List.getElem?_map, here]
      rfl
    have window : (windows start.1.last (instants deeds))[k]? = some (call.now.since previous) :=
      windows_getElem? before now
    have rate := congrArg (·[k]?) timed.rates
    simp only [List.getElem?_map, here, window, Option.map_some, Option.some.injEq] at rate
    exact .of_rate fits rate
  · intro r returned previous now fits
    have report := life.1.report_returns .requested life.2 returned
    have rate : r.rate = ofNat life.1.interval.records.toNat /
        ((Surroundings.read life.1.clock life.2).1.since life.1.last).seconds := by
      rw [report]
      rfl
    rw [timed.interval, timed.clock, timed.last] at rate
    exact .of_rate fits rate

theorem rates_of_run_squares :
    let start : _ × Minuted (Parted Clocks.squares Writers.refusing) Unit Unit :=
      Meter.begin ⟨2, by decide⟩ none () (.fresh ⟨0, ()⟩)
    let call := start.1.call .requested start.2
    (calls (Step.journal [.report] start))[0]? = some call ∧
      (start.1.report start.2).1 = .ok call.report ∧
      (call.now.since start.1.start).wholeSeconds < 2 ^ 64 ∧
      RateTells start.1.start call.now call.report ∧ call.report.isMeasurable = true := by
  intro start call
  have calm : Writers.refusing.Calm := by
    constructor
    · rintro _ _ _ crash ⟨⟩
    · rintro _ _ crash ⟨⟩
  have delivered := calm.line start.1 start.2
  have returned : (start.1.report start.2).1 = .ok call.report := by
    rw [(start.1.report_delivered .requested start.2 (by decide) delivered).2]
  have fits : (call.now.since start.1.start).wholeSeconds < 2 ^ 64 := by decide
  have rates (steps : List (Step (Parted Clocks.squares Writers.refusing) Unit)) :=
    rates_of_run ⟨2, by decide⟩ none () (⟨0, ()⟩ : Parted Clocks.squares Writers.refusing) steps
  have made : RateTells start.1.start call.now call.report := (rates [.report]).1 0 _ _ rfl rfl fits
  have asked : RateTells start.1.start call.now call.report := (rates []).2 _ returned fits
  exact ⟨rfl, returned, fits, made, asked.measurable.mpr (by decide)⟩

end Cadence
