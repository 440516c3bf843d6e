import Cadence.Proofs.Life.Reliable

namespace Cadence

variable {σ κ δ : Type} {places : Option δ → Prop} {known : List (Deed δ) → σ → Prop}

def Step.Within (places : Option δ → Prop) (known : List (Deed δ) → σ → Prop) : Step σ δ → Prop
  | .redirect destination => places destination
  | .meanwhile change => ∀ deeds s, known deeds s → known deeds (change s)
  | _ => True

structure Smooth (places : Option δ → Prop) (known : List (Deed δ) → σ → Prop)
    (steps : List (Step σ δ)) (deeds : List (Deed δ)) (m : Meter κ δ) (s : σ) : Prop where
  place : places m.destination
  sofar : known deeds s
  came : ∀ call ∈ calls deeds, call.returned = true
  reports : m.reports.toNat = (calls deeds).length
  marked : (marks deeds).length = if m.finished then 1 else 0
  finished : m.finished = true ↔ .close ∈ steps

namespace Smooth

variable {steps : List (Step σ δ)} {deeds : List (Deed δ)} {m m' : Meter κ δ} {s s' : σ}

theorem passage (smooth : Smooth places known steps deeds m s) {step : Step σ δ}
    {more : List (Deed δ)} (passage : Passage m more m') (another : .close ≠ step)
    (after : known (deeds ++ more) s' ∧ ∀ call ∈ calls more, call.returned = true) :
    Smooth places known (steps ++ [step]) (deeds ++ more) m' s' := by
  obtain ⟨count, last, reports, frame⟩ := passage.frame
  constructor
  case place => rw [frame]; exact smooth.place
  case sofar => exact after.1
  case came =>
    intro call member
    rw [calls_append, List.mem_append] at member
    exact member.elim (smooth.came call) (after.2 call)
  case reports =>
    rw [passage.reports, smooth.reports, List.countP_eq_length.mpr after.2, calls_append,
      List.length_append]
  case marked => rw [marks_append, passage.unmarked, List.append_nil, smooth.marked, frame]
  case finished =>
    rw [List.mem_append, List.mem_singleton, or_iff_left another, ← smooth.finished, frame]

theorem idle (smooth : Smooth places known steps deeds m s) (step : Step σ δ)
    (still : .close = step → .close ∈ steps) {destination : Option δ} (place : places destination)
    (sofar : known deeds s') :
    Smooth places known (steps ++ [step]) (deeds ++ []) { m with destination } s' := by
  rw [List.append_nil]
  constructor
  case place => exact place
  case sofar => exact sofar
  case came => exact smooth.came
  case reports => exact smooth.reports
  case marked => exact smooth.marked
  case finished =>
    rw [List.mem_append, List.mem_singleton, or_iff_left_of_imp still]
    exact smooth.finished

variable [Surroundings σ κ δ]

theorem reported (smooth : Smooth places known steps deeds m s) (step : Step σ δ)
    {occasion : Occasion} (room : m.reports ≠ Count.greatest)
    (came : (m.call occasion s).returned = true) (after : List (Deed δ)) {finished : Bool}
    (unreported : calls after = [])
    (marked : (marks deeds).length + (marks after).length = if finished then 1 else 0)
    (closed : finished = true ↔ .close ∈ steps ++ [step])
    (sofar : known (deeds ++ .report (m.call occasion s) :: after) s') :
    Smooth places known (steps ++ [step]) (deeds ++ .report (m.call occasion s) :: after)
      { m with last := (m.call occasion s).now, reports := m.reports + 1, finished } s' := by
  have all : calls (deeds ++ .report (m.call occasion s) :: after) =
      calls deeds ++ [m.call occasion s] := by
    rw [calls_append, calls_report, unreported]
  constructor
  case place => exact smooth.place
  case sofar => exact sofar
  case came =>
    intro call member
    rw [all, List.mem_append, List.mem_singleton] at member
    rcases member with member | rfl
    · exact smooth.came call member
    · exact came
  case reports =>
    rw [all, List.length_append, ← smooth.reports]
    exact Count.toNat_succ m.reports room
  case marked => rw [marks_append, List.length_append, marks_report, marked]
  case finished => exact closed

theorem step (smooth : Smooth places known steps deeds m s) (reliable : Reliable places known)
    (step : Step σ δ) (within : step.Within places known)
    (few : (calls (deeds ++ (step.course m s).deeds)).length ≤ Count.greatest.toNat) :
    Smooth places known (steps ++ [step]) (deeds ++ (step.course m s).deeds)
      (step.run m s).2.1 (step.run m s).2.2 := by
  rw [calls_append, List.length_append, ← smooth.reports] at few
  rw [← step.course_outcome]
  cases step with
  | increment =>
    exact smooth.passage (m.incrementing_passage s) (by simp)
      (reliable.incrementing smooth.place smooth.sofar few)
  | incrementBy n =>
    exact smooth.passage (m.incrementingBy_passage n s) (by simp)
      (reliable.advancing smooth.place smooth.sofar _ few)
  | report =>
    have room : m.reports ≠ Count.greatest := by
      intro full
      rw [full] at few
      exact Nat.not_succ_le_self _ few
    obtain ⟨delivered, sofar⟩ := reliable.report .requested m smooth.place smooth.sofar
    obtain ⟨came, ok⟩ := m.report_delivered .requested s room delivered
    have ended : (Step.report.course m s).outcome.2 = (m.report s).2 := rfl
    rw [ended, ok]
    have unclosed : m.finished = true ↔ .close ∈ steps ++ [.report] := by simpa using smooth.finished
    exact smooth.reported .report room came [] rfl smooth.marked unclosed sofar
  | close =>
    by_cases shut : m.finished = true
    · rw [Step.course, Meter.closing_finished shut]
      exact smooth.idle .close (fun _ => smooth.finished.mp shut) smooth.place smooth.sofar
    · obtain ⟨came, terminal, room, sofar⟩ := reliable.closing smooth.place smooth.sofar shut few
      rw [Step.course, terminal]
      apply smooth.reported .close room came _ rfl _ (by simp) sofar
      rw [smooth.marked, if_neg shut]
      rfl
  | redirect destination => exact smooth.idle (.redirect destination) (by simp) within smooth.sofar
  | meanwhile change =>
    exact smooth.idle (.meanwhile change) (by simp) smooth.place (within _ _ smooth.sofar)

theorem run (reliable : Reliable places known) (interval : Interval) {destination : Option δ}
    (clock : κ) (s : σ) (place : places destination)
    (initially : known [] (Meter.begin interval destination clock s).2) (steps : List (Step σ δ))
    (within : ∀ step ∈ steps, step.Within places known)
    (few : (calls (Step.journal steps (Meter.begin interval destination clock s))).length ≤
      Count.greatest.toNat) :
    let start := Meter.begin interval destination clock s
    Smooth places known steps (Step.journal steps start) (Step.through steps start).1
      (Step.through steps start).2 := by
  revert within few
  apply Step.invariant_of_run (fun steps deeds life => (∀ step ∈ steps, step.Within places known) →
    (calls deeds).length ≤ Count.greatest.toNat →
    Smooth places known steps deeds life.1 life.2)
  · intro _ _
    exact {
      place
      sofar := initially
      came := by simp
      reports := rfl
      marked := rfl
      finished := by simp [Meter.begin] }
  · intro steps deeds step m s before within few
    have fewer : (calls deeds).length ≤ Count.greatest.toNat := by
      rw [calls_append, List.length_append] at few
      omega
    have smooth := before (fun step member => within step (List.mem_append_left _ member)) fewer
    exact smooth.step reliable step (within step List.mem_concat_self) few

end Smooth

end Cadence
