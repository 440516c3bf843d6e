import Cadence.Proofs.Meter.Passage
import Mathlib.Data.List.Induction

namespace Cadence

inductive Step (σ δ : Type)
  | increment
  | incrementBy (n : UInt64)
  | report
  | close
  | redirect (destination : Option δ)
  | meanwhile (change : σ → σ)

namespace Step

inductive Answer (δ : Type)
  | nothing
  | report (r : Report)
  | closing (r : Option Report)
  | former (destination : Option δ)

variable {σ κ δ : Type}

def answering {α : Type} (f : α → Answer δ) (outcome : Attempt α × Meter κ δ × σ) :
    Attempt (Answer δ) × Meter κ δ × σ :=
  (outcome.1.map f, outcome.2)

def courseAnswering {α : Type} (f : α → Answer δ) (c : Course σ κ δ α) :
    Course σ κ δ (Answer δ) :=
  ⟨c.deeds, answering f c.outcome⟩

variable [Surroundings σ κ δ]

def run : Step σ δ → Meter κ δ → σ → Attempt (Answer δ) × Meter κ δ × σ
  | .increment, m, s => answering (fun _ => .nothing) (m.increment s)
  | .incrementBy n, m, s => answering (fun _ => .nothing) (m.incrementBy n s)
  | .report, m, s => answering .report (m.report s)
  | .close, m, s => answering .closing (m.close s)
  | .redirect destination, m, s =>
    (.ok (.former (m.redirect destination).1), (m.redirect destination).2, s)
  | .meanwhile change, m, s => (.ok .nothing, m, change s)

def course : Step σ δ → Meter κ δ → σ → Course σ κ δ (Answer δ)
  | .increment, m, s => courseAnswering (fun _ => .nothing) (m.incrementing s)
  | .incrementBy n, m, s => courseAnswering (fun _ => .nothing) (m.incrementingBy n s)
  | .report, m, s => courseAnswering .report (m.reporting .requested s)
  | .close, m, s => courseAnswering .closing (m.closing s)
  | .redirect destination, m, s => .quiet ((redirect destination).run m s)
  | .meanwhile change, m, s => .quiet ((meanwhile change).run m s)

theorem course_outcome (step : Step σ δ) (m : Meter κ δ) (s : σ) :
    (step.course m s).outcome = step.run m s := by
  cases step with
  | increment => exact congrArg (answering _) (m.incrementing_outcome s)
  | incrementBy n => exact congrArg (answering _) (m.incrementingBy_outcome n s)
  | report => rfl
  | close => exact congrArg (answering _) (m.closing_outcome s)
  | redirect destination => rfl
  | meanwhile change => rfl

def through : List (Step σ δ) → Meter κ δ × σ → Meter κ δ × σ
  | [], life => life
  | step :: steps, life => through steps (step.run life.1 life.2).2

def journal : List (Step σ δ) → Meter κ δ × σ → List (Deed δ)
  | [], _ => []
  | step :: steps, life =>
    (step.course life.1 life.2).deeds ++ journal steps (step.run life.1 life.2).2

theorem through_append (first second : List (Step σ δ)) (life : Meter κ δ × σ) :
    through (first ++ second) life = through second (through first life) := by
  induction first generalizing life with
  | nil => rfl
  | cons step steps rest => exact rest _

theorem journal_append (first second : List (Step σ δ)) (life : Meter κ δ × σ) :
    journal (first ++ second) life = journal first life ++ journal second (through first life) := by
  induction first generalizing life with
  | nil => rfl
  | cons step steps rest =>
    simp only [List.cons_append, journal, rest, List.append_assoc, through]

theorem invariant_of_run (P : List (Step σ δ) → List (Deed δ) → Meter κ δ × σ → Prop)
    (life : Meter κ δ × σ) (initially : P [] [] life)
    (kept : ∀ steps deeds (step : Step σ δ) m s, P steps deeds (m, s) →
      P (steps ++ [step]) (deeds ++ (step.course m s).deeds) (step.run m s).2)
    (steps : List (Step σ δ)) : P steps (journal steps life) (through steps life) := by
  induction steps using List.reverseRecOn with
  | nil => exact initially
  | append_singleton steps step before =>
    rw [journal_append, through_append]
    have after := kept steps _ step _ _ before
    rwa [← List.append_nil (step.course _ _).deeds] at after

end Step

end Cadence
