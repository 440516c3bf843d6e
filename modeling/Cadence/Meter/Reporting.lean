import Cadence.Meter.Basic
import Cadence.Meter.Count

namespace Cadence.Meter

variable {σ κ δ : Type} [Surroundings σ κ δ]

def reportAt (m : Meter κ δ) (now : Instant) : Report where
  count := m.count
  rate := .ofNat m.interval.records.toNat / (now.since m.last).seconds
  elapsed := (now.since m.start).seconds

def countReport (m : Meter κ δ) (r : Report) (s : σ) : Attempt Report × Meter κ δ × σ :=
  if m.reports = Count.greatest then (.error .countOverflow, m, s)
  else (.ok r, { m with reports := m.reports + 1 }, s)

/-- Writes a report over the current line of the destination. The window moves on before anything is
written, so a writer that fails or crashes cannot change the timing. -/
def report (m : Meter κ δ) (s : σ) : Attempt Report × Meter κ δ × σ :=
  let (now, s) := Surroundings.read m.clock s
  let r := m.reportAt now
  let m := { m with last := now }
  let s := Surroundings.log (.progress r.count r.rate) s
  match emit m.destination ("\r" :: r.pieces) s with
  | (.done, s) => m.countReport r s
  | (.failed fault, s) => m.countReport r (Surroundings.log (.reportFailed fault) s)
  | (.crashed crash, s) => (.error crash, m, s)

def increment (m : Meter κ δ) (s : σ) : Attempt Unit × Meter κ δ × σ :=
  if m.count = Count.greatest then (.error .countOverflow, m, s)
  else
    let m := { m with count := m.count + 1 }
    if m.count % m.interval.records = 0 then
      match m.report s with
      | (.ok _, m, s) => (.ok (), m, s)
      | (.error crash, m, s) => (.error crash, m, s)
    else (.ok (), m, s)

def incrementTimes : Nat → Meter κ δ → σ → Attempt Unit × Meter κ δ × σ
  | 0, m, s => (.ok (), m, s)
  | n + 1, m, s =>
    match m.increment s with
    | (.ok _, m, s) => incrementTimes n m s
    | (.error crash, m, s) => (.error crash, m, s)

def nextBoundary? (m : Meter κ δ) : Option UInt64 :=
  (Count.plus? (m.count / m.interval.records) 1).bind (Count.times? · m.interval.records)

theorem lt_of_plus?_interval {a b : UInt64} {interval : Interval}
    (sum : Count.plus? a interval.records = some b) : a.toNat < b.toNat := by
  have positive := interval.records_pos
  have total := (Count.plus?_eq_some_iff _ _ _).mp sum
  omega

/-- Moves on to a multiple of the interval and reports there, then to the one after it, and so on
up to the target. A multiple that is no count cannot be reached. -/
def reportBoundaries (target : UInt64) (boundary : Option UInt64) (m : Meter κ δ) (s : σ) :
    Attempt Unit × Meter κ δ × σ :=
  match _h : boundary.filter (· ≤ target) with
  | none => (.ok (), m, s)
  | some b =>
    match { m with count := b }.report s with
    | (.ok _, m', s) => reportBoundaries target (Count.plus? b m.interval.records) m' s
    | (.error crash, m, s) => (.error crash, m, s)
termination_by boundary.elim 0 fun b => target.toNat + 1 - b.toNat
decreasing_by
  obtain ⟨here, reached⟩ := Option.filter_eq_some_iff.mp _h
  have reached : b.toNat ≤ target.toNat := by simpa [UInt64.le_iff_toNat_le] using reached
  cases next : Count.plus? b m.interval.records with
  | none =>
    simp only [here, Option.elim_none, Option.elim_some]
    omega
  | some c =>
    have later := lt_of_plus?_interval next
    simp only [here, Option.elim_some]
    omega

theorem reportBoundaries_beyond {target : UInt64} {boundary : Option UInt64}
    (beyond : boundary.filter (· ≤ target) = none) (m : Meter κ δ) (s : σ) :
    m.reportBoundaries target boundary s = (.ok (), m, s) := by
  rw [reportBoundaries]
  split
  · rfl
  · simp_all

theorem reportBoundaries_reached {target b : UInt64} (reached : b ≤ target) (m : Meter κ δ)
    (s : σ) :
    m.reportBoundaries target (some b) s =
      match { m with count := b }.report s with
      | (.ok _, m', s) => m'.reportBoundaries target (Count.plus? b m.interval.records) s
      | (.error crash, m, s) => (.error crash, m, s) := by
  have kept : (some b).filter (· ≤ target) = some b := by simp [reached]
  rw [reportBoundaries]
  split
  · rename_i beyond
    rw [kept] at beyond
    cases beyond
  · rename_i c here
    rw [kept] at here
    cases here
    rfl

def incrementBy (m : Meter κ δ) (n : UInt64) (s : σ) : Attempt Unit × Meter κ δ × σ :=
  let target := Count.plusUpToGreatest m.count n
  match m.reportBoundaries target m.nextBoundary? s with
  | (.ok _, m, s) => (.ok (), { m with count := target }, s)
  | (.error crash, m, s) => (.error crash, m, s)

def doneMarker : String := "...Done!\n"

def finish (m : Meter κ δ) (r : Report) (s : σ) : Attempt (Option Report) × Meter κ δ × σ :=
  (.ok (some r), { m with finished := true }, Surroundings.log (.finished r.count r.elapsed) s)

def close (m : Meter κ δ) (s : σ) : Attempt (Option Report) × Meter κ δ × σ :=
  if m.finished then (.ok none, m, s)
  else
    match m.report s with
    | (.error crash, m, s) => (.error crash, m, s)
    | (.ok r, m, s) =>
      match emit m.destination [doneMarker] s with
      | (.done, s) => m.finish r s
      | (.failed fault, s) => m.finish r (Surroundings.log (.markerFailed fault) s)
      | (.crashed crash, s) => (.error crash, m, s)

def retire (m : Meter κ δ) (s : σ) : Attempt Unit × σ :=
  match m.close s with
  | (.ok _, _, s) => (.ok (), s)
  | (.error crash, _, s) => (.error crash, s)

end Cadence.Meter
