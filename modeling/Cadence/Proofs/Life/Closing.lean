import Cadence.Proofs.Life.Bound
import Cadence.Proofs.Life.Smooth

namespace Cadence

variable {σ κ δ : Type} [Surroundings σ κ δ]

theorem Meter.retire_eq (m : Meter κ δ) (s : σ) :
    m.retire s = ((m.close s).1.map fun _ => (), (m.close s).2.2) := by
  rw [Meter.retire]
  generalize m.close s = closed
  obtain ⟨result, m', s'⟩ := closed
  cases result <;> rfl

theorem Meter.retire_surroundings (m : Meter κ δ) (s : σ) :
    (m.retire s).2 = (m.close s).2.2 :=
  congrArg Prod.snd (m.retire_eq s)

variable {places : Option δ → Prop} {known : List (Deed δ) → σ → Prop}

theorem Smooth.close_open {steps : List (Step σ δ)} {deeds : List (Deed δ)} {m : Meter κ δ} {s : σ}
    (smooth : Smooth places known steps deeds m s) (reliable : Reliable places known)
    (before : .close ∉ steps)
    (few : (calls (deeds ++ (m.closing s).deeds)).length ≤ Count.greatest.toNat) :
    m.closing s = m.terminal s := by
  have going : ¬ m.finished = true := fun shut => before (smooth.finished.mp shut)
  rw [calls_append, List.length_append, ← smooth.reports] at few
  exact (reliable.closing smooth.place smooth.sofar going few).2.1

theorem Smooth.close_closed {steps : List (Step σ δ)} {deeds : List (Deed δ)} {m : Meter κ δ}
    {s : σ} (smooth : Smooth places known steps deeds m s) (before : .close ∈ steps) :
    m.closing s = .quiet (.ok none, m, s) :=
  Meter.closing_finished (smooth.finished.mpr before) s

/-- The life of a meter among writers that fail but do not crash, with its end as a last closing: a
meter is finished once a closing stands among its steps. The first closing makes the last report and
then writes the marker, even if the report failed, and gives back the report; every later one gives
back nothing and leaves the meter and its surroundings, whatever they remember, as they were. -/
theorem first_close_finishes {calm : σ → Prop} (peaceful : Peaceful places calm)
    (interval : Interval) {destination : Option δ} (clock : κ) {s : σ} (place : places destination)
    (calmly : calm s) (steps : List (Step σ δ))
    (within : ∀ step ∈ steps, step.Within places fun _ => calm)
    (few : (calls (Step.journal (steps ++ [.close])
      (Meter.begin interval destination clock s))).length < 18446744073709551616) :
    let start := Meter.begin interval destination clock s
    (∀ (m : Meter κ δ) (s : σ), m.retire s = ((m.close s).1.map fun _ => (), (m.close s).2.2)) ∧
    (∀ before, before <+: steps ++ [.close] →
      ((Step.through before start).1.finished = true ↔ .close ∈ before)) ∧
    (∀ before after, steps ++ [.close] = before ++ .close :: after →
      let m := (Step.through before start).1
      let s := (Step.through before start).2
      (.close ∉ before →
        (m.closing s).deeds = (m.terminal s).deeds ∧ m.close s = (m.terminal s).outcome) ∧
      (.close ∈ before → (m.closing s).deeds = [] ∧ m.close s = (.ok none, m, s))) ∧
    (marks (Step.journal (steps ++ [.close]) start)).length = 1 := by
  intro start
  have reliable := peaceful.reliable
  have initially : calm start.2 := peaceful.log _ (peaceful.read clock calmly)
  have all (step : Step σ δ) (member : step ∈ steps ++ [.close]) :
      step.Within places fun _ => calm := by
    rcases List.mem_append.mp member with member | member
    · exact within step member
    · rw [List.mem_singleton.mp member]
      exact True.intro
  have bound (before after : List (Step σ δ)) (parts : steps ++ [.close] = before ++ after) :
      (calls (Step.journal before start)).length ≤ Count.greatest.toNat := by
    rw [parts, Step.journal_append, calls_append, List.length_append] at few
    exact Nat.le_of_lt_succ (Nat.lt_of_le_of_lt (Nat.le_add_right _ _) few)
  have smooth (before after : List (Step σ δ)) (parts : steps ++ [.close] = before ++ after) :=
    Smooth.run reliable interval clock s place initially before
      (fun step member => all step (by rw [parts]; exact List.mem_append_left _ member))
      (bound before after parts)
  refine ⟨Meter.retire_eq, ?_, ?_, ?_⟩
  · rintro before ⟨after, parts⟩
    exact (smooth before after parts.symm).finished
  · intro before after parts
    have here := smooth before (.close :: after) parts
    constructor
    · intro first
      have fewer := bound (before ++ [.close]) after (by simp [parts])
      rw [Step.journal_append, Step.journal, Step.journal, List.append_nil] at fewer
      have terminal := here.close_open reliable first fewer
      rw [← Meter.closing_outcome, terminal]
      exact ⟨rfl, rfl⟩
    · intro again
      rw [← Meter.closing_outcome, here.close_closed again]
      exact ⟨rfl, rfl⟩
  · have whole := smooth (steps ++ [.close]) [] (List.append_nil _).symm
    have shut := whole.finished.mpr (by simp)
    exact whole.marked.trans (if_pos shut)

open Session

/-- A pipe that takes two bytes at a time and twenty in all, and whose flushes fail. -/
theorem first_close_finishes_on_pipe :
    let pipe := Outlet.pipe { Faults.none with
      limit := some 20, chunk := some 2, interrupts := 1, flushFailure := some (some .timedOut) }
    let rig := { Rig.empty with clocks := #[.scripted Rig.origin ⟨1⟩], outlets := #[pipe] }
    let start := Meter.begin ⟨2, by decide⟩ (some 0) (.numbered 0) rig
    let steps : List (Step Rig Nat) := [.increment, .close, .incrementBy 7, .report, .close]
    (Step.through [.increment, .close] start).1.finished = true ∧
      (marks (Step.journal (steps ++ [.close]) start)).length = 1 := by
  intro pipe rig start steps
  have calm : rig.Calm := by
    intro n
    cases n <;> exact ⟨by rintro ⟨⟩, by rintro ⟨⟩⟩
  have few : (calls (Step.journal (steps ++ [.close]) start)).length < 18446744073709551616 :=
    Nat.lt_of_le_of_lt (calls_journal_le _ start) (by decide)
  have life := first_close_finishes Rig.peaceful ⟨2, by decide⟩
    (.numbered 0) True.intro calm steps (by simp [steps, Step.Within]) few
  exact ⟨(life.2.1 [.increment, .close] ⟨_, rfl⟩).mpr (by simp), life.2.2.2⟩

end Cadence
