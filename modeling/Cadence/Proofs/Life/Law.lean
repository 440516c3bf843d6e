import Cadence.Proofs.Life.Step

namespace Cadence

variable {σ τ κ δ : Type} [Surroundings σ κ δ]

/-- A relation of a meter and its surroundings before some deeds to those after them. One that holds
of a report, of a marking and of a change of the count, and is handed on from stretch to stretch,
holds of every step and of every life. -/
structure Law (law : Meter κ δ × σ → List (Deed δ) → Meter κ δ × σ → Prop) : Prop where
  stay : ∀ life, law life [] life
  trans : ∀ {before mid after first second}, law before first mid → law mid second after →
    law before (first ++ second) after
  count : ∀ (m : Meter κ δ) (s : σ) (c : UInt64), law (m, s) [] ({ m with count := c }, s)
  report : ∀ (occasion : Occasion) (m : Meter κ δ) (s : σ),
    law (m, s) [.report (m.call occasion s)] (m.report s).2
  mark : ∀ (r : Report) (m : Meter κ δ) (s : σ), m.finished = false →
    law (m, s) (m.marking r s).deeds (m.marking r s).outcome.2

namespace Law

open Meter

variable {law : Meter κ δ × σ → List (Deed δ) → Meter κ δ × σ → Prop}

theorem andThen (lawful : Law law) {α β : Type} {c : Course σ κ δ α}
    {f : α → Meter κ δ → σ → Course σ κ δ β} {life : Meter κ δ × σ}
    (first : law life c.deeds c.outcome.2)
    (second : ∀ a, c.outcome.1 = .ok a → law c.outcome.2
      (f a c.outcome.2.1 c.outcome.2.2).deeds (f a c.outcome.2.1 c.outcome.2.2).outcome.2) :
    law life (c.andThen f).deeds (c.andThen f).outcome.2 := by
  obtain ⟨deeds, result, m, s⟩ := c
  cases result with
  | error crash => exact first
  | ok a => exact lawful.trans first (second a rfl)

theorem reportingAt (lawful : Law law) (cs : List UInt64) (m : Meter κ δ) (s : σ) :
    law (m, s) (m.reportingAt cs s).deeds (m.reportingAt cs s).outcome.2 := by
  induction cs generalizing m s with
  | nil => exact lawful.stay (m, s)
  | cons c cs rest =>
    apply lawful.andThen
    · exact lawful.trans (lawful.count m s c) (lawful.report .periodic { m with count := c } s)
    · intro _ _
      exact rest _ _

theorem advancing (lawful : Law law) (target : UInt64) (m : Meter κ δ) (s : σ) :
    law (m, s) (m.advancing target s).deeds (m.advancing target s).outcome.2 := by
  apply lawful.andThen
  · exact lawful.reportingAt _ m s
  · intro _ _
    exact lawful.count _ _ target

theorem incrementing (lawful : Law law) (m : Meter κ δ) (s : σ) :
    law (m, s) (m.incrementing s).deeds (m.incrementing s).outcome.2 := by
  rw [Meter.incrementing]
  split
  · exact lawful.stay (m, s)
  · exact lawful.advancing _ m s

theorem closing (lawful : Law law) (m : Meter κ δ) (s : σ) :
    law (m, s) (m.closing s).deeds (m.closing s).outcome.2 := by
  by_cases shut : m.finished = true
  · rw [closing_finished shut]
    exact lawful.stay (m, s)
  · rw [closing_open shut]
    apply lawful.andThen
    · exact lawful.report .closing m s
    · intro r _
      obtain ⟨last, reports, frame⟩ := m.report_frame s
      apply lawful.mark
      have going : (m.report s).2.1.finished = m.finished := by rw [frame]
      exact going.trans (Bool.eq_false_iff.mpr shut)

end Law

def Step.among (lift : (τ → τ) → σ → σ) : Step τ δ → Step σ δ
  | .increment => .increment
  | .incrementBy n => .incrementBy n
  | .report => .report
  | .close => .close
  | .redirect destination => .redirect destination
  | .meanwhile change => .meanwhile (lift change)

def Step.IsOwn : Step σ δ → Prop
  | .redirect _ | .meanwhile _ => False
  | _ => True

theorem Step.own_or_other (step : Step σ δ) :
    step.IsOwn ∨ (∃ destination, step = .redirect destination) ∨
      ∃ change, step = .meanwhile change := by
  cases step <;> simp [IsOwn]

theorem Step.IsOwn.among {step : Step τ δ} (own : step.IsOwn) (lift : (τ → τ) → σ → σ) :
    (step.among lift).IsOwn := by
  cases step <;> exact own

theorem Law.step {law : Meter κ δ × σ → List (Deed δ) → Meter κ δ × σ → Prop} (lawful : Law law)
    (step : Step σ δ) (own : step.IsOwn) (m : Meter κ δ) (s : σ) :
    law (m, s) (step.course m s).deeds (step.run m s).2 := by
  rw [← step.course_outcome]
  cases step with
  | increment => exact lawful.incrementing m s
  | incrementBy n => exact lawful.advancing _ m s
  | report => exact lawful.report .requested m s
  | close => exact lawful.closing m s
  | redirect destination => exact own.elim
  | meanwhile change => exact own.elim

theorem Law.run {law : Meter κ δ × σ → List (Deed δ) → Meter κ δ × σ → Prop} (lawful : Law law)
    (redirect : ∀ (m : Meter κ δ) (s : σ) destination,
      law (m, s) [] ({ m with destination := destination }, s))
    {lift : (τ → τ) → σ → σ} (meanwhile : ∀ change (m : Meter κ δ) s,
      law (m, s) [] (m, lift change s))
    (steps : List (Step τ δ)) (life : Meter κ δ × σ) :
    law life (Step.journal (steps.map (Step.among lift)) life)
      (Step.through (steps.map (Step.among lift)) life) := by
  induction steps generalizing life with
  | nil => exact lawful.stay life
  | cons step steps rest =>
    refine lawful.trans ?_ (rest _)
    obtain ⟨m, s⟩ := life
    rcases step.own_or_other with own | ⟨destination, rfl⟩ | ⟨change, rfl⟩
    · exact lawful.step (step.among lift) (own.among lift) m s
    · exact redirect m s destination
    · exact meanwhile change m s

end Cadence
