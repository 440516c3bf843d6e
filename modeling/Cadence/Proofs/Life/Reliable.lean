import Cadence.Proofs.Emission.Peaceful
import Cadence.Proofs.Life.Step

namespace Cadence

open Meter

/-- No report to the places crashes and no marker does; what is known of the surroundings follows
from the deeds so far. -/
structure Reliable {σ κ δ : Type} [Surroundings σ κ δ] (places : Option δ → Prop)
    (known : List (Deed δ) → σ → Prop) : Prop where
  report : ∀ {deeds s} (occasion : Occasion) (m : Meter κ δ), places m.destination →
    known deeds s →
    (∀ crash, (m.line s).1 ≠ .crashed crash) ∧
      known (deeds ++ [.report (m.call occasion s)]) (noting .reportFailed (m.line s))
  mark : ∀ {deeds s d} (r : Report), places d → known deeds s →
    (∀ crash, (emit d [doneMarker] s).1 ≠ .crashed crash) ∧
      known (deeds ++ [.mark d (emit d [doneMarker] s).1])
        (Surroundings.log (.finished r.count r.elapsed)
          (noting .markerFailed (emit d [doneMarker] s)))

variable {σ κ δ : Type} [Surroundings σ κ δ] {places : Option δ → Prop}

theorem Peaceful.noting {calm : σ → Prop} (peaceful : Peaceful places calm) (event : Fault → Event)
    {emission : Delivery × σ} (calmly : calm emission.2) : calm (noting event emission) := by
  obtain ⟨delivery, s⟩ := emission
  cases delivery with
  | done => exact calmly
  | failed fault => exact peaceful.log _ calmly
  | crashed crash => exact calmly

theorem Peaceful.reliable {calm : σ → Prop} (peaceful : Peaceful places calm) :
    Reliable places fun _ => calm := by
  constructor
  case report =>
    intro deeds s occasion m place calmly
    have line : (∀ crash, (m.line s).1 ≠ .crashed crash) ∧ calm (m.line s).2 :=
      peaceful.emit place (peaceful.log _ (peaceful.read m.clock calmly)) _
    exact ⟨line.1, peaceful.noting _ line.2⟩
  case mark =>
    intro deeds s d r place calmly
    obtain ⟨survives, after⟩ := peaceful.emit place calmly [doneMarker]
    exact ⟨survives, peaceful.log _ (peaceful.noting _ after)⟩

theorem room_of_few {α : Type} {occasion : Occasion} {m : Meter κ δ} {s : σ}
    {f : Report → Meter κ δ → σ → Course σ κ δ α}
    (few : m.reports.toNat + (calls ((m.reporting occasion s).andThen f).deeds).length ≤
      Count.greatest.toNat) : m.reports ≠ Count.greatest := by
  intro full
  rcases m.report_cases occasion s with ⟨_, _, _, s', ok⟩ | ⟨_, crash, s', error, _⟩
  · rw [reporting_andThen_ok _ ok, calls_report, List.length_cons, full] at few
    omega
  · rw [reporting_andThen_error _ error, calls_report, List.length_cons, full] at few
    omega

namespace Reliable

variable {known : List (Deed δ) → σ → Prop} {deeds : List (Deed δ)} {m : Meter κ δ} {s : σ}

theorem reportingAt (reliable : Reliable places known) (place : places m.destination)
    (sofar : known deeds s) (cs : List UInt64)
    (few : m.reports.toNat + (calls (m.reportingAt cs s).deeds).length ≤ Count.greatest.toNat) :
    known (deeds ++ (m.reportingAt cs s).deeds) (m.reportingAt cs s).outcome.2.2 ∧
      ∀ call ∈ calls (m.reportingAt cs s).deeds, call.returned = true := by
  induction cs generalizing m deeds s with
  | nil =>
    rw [Meter.reportingAt, Course.quiet, List.append_nil]
    exact ⟨sofar, by simp⟩
  | cons c cs rest =>
    rw [Meter.reportingAt] at few ⊢
    have room : m.reports ≠ Count.greatest := room_of_few (m := { m with count := c }) few
    obtain ⟨survives, after⟩ := reliable.report .periodic { m with count := c } place sofar
    obtain ⟨came, ok⟩ := Meter.report_delivered .periodic { m with count := c } s room survives
    rw [reporting_andThen_ok _ ok] at few ⊢
    have counted := Count.toNat_succ m.reports room
    rw [calls_report, List.length_cons, Nat.add_comm _ 1, ← Nat.add_assoc, ← counted] at few
    obtain ⟨further, others⟩ := rest
      (m := { m with count := c, last := (Meter.call _ _ s).now, reports := m.reports + 1 })
      place after few
    rw [List.append_assoc, List.singleton_append] at further
    refine ⟨further, ?_⟩
    intro call member
    rcases List.mem_cons.mp member with rfl | member
    · exact came
    · exact others call member

theorem advancing (reliable : Reliable places known) (place : places m.destination)
    (sofar : known deeds s) (target : UInt64)
    (few : m.reports.toNat + (calls (m.advancing target s).deeds).length ≤ Count.greatest.toNat) :
    known (deeds ++ (m.advancing target s).deeds) (m.advancing target s).outcome.2.2 ∧
      ∀ call ∈ calls (m.advancing target s).deeds, call.returned = true := by
  obtain ⟨same, after⟩ := m.advancing_reports target s
  rw [same] at few ⊢
  rw [after]
  exact reliable.reportingAt place sofar _ few

theorem incrementing (reliable : Reliable places known) (place : places m.destination)
    (sofar : known deeds s)
    (few : m.reports.toNat + (calls (m.incrementing s).deeds).length ≤ Count.greatest.toNat) :
    known (deeds ++ (m.incrementing s).deeds) (m.incrementing s).outcome.2.2 ∧
      ∀ call ∈ calls (m.incrementing s).deeds, call.returned = true := by
  by_cases full : m.count = Count.greatest
  · rw [Meter.incrementing, if_pos full, Course.quiet, List.append_nil]
    exact ⟨sofar, by simp⟩
  · rw [Meter.incrementing, if_neg full] at few ⊢
    exact reliable.advancing place sofar _ few

theorem closing (reliable : Reliable places known) (place : places m.destination)
    (sofar : known deeds s) (going : ¬ m.finished = true)
    (few : m.reports.toNat + (calls (m.closing s).deeds).length ≤ Count.greatest.toNat) :
    (m.call .closing s).returned = true ∧ m.closing s = m.terminal s ∧
      m.reports ≠ Count.greatest ∧
      known (deeds ++ (m.terminal s).deeds) (m.terminal s).outcome.2.2 := by
  have room : m.reports ≠ Count.greatest := by
    rw [Meter.closing_open going] at few
    exact room_of_few few
  obtain ⟨delivered, after⟩ := reliable.report .closing m place sofar
  obtain ⟨survives, further⟩ := reliable.mark (m.call .closing s).report place after
  rw [List.append_assoc, List.singleton_append] at further
  have came := (m.report_delivered .closing s room delivered).1
  exact ⟨came, m.closing_terminal s going room delivered survives, room, further⟩

end Reliable

end Cadence
