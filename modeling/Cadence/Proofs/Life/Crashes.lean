import Cadence.Proofs.Life.Law

namespace Cadence

variable {σ κ δ : Type}

def Deed.delivery : Deed δ → Delivery
  | .report call => call.delivery
  | .mark _ delivery => delivery

namespace Meter

variable [Surroundings σ κ δ]

def settled (r : Report) (m : Meter κ δ) : Delivery → Attempt Report × Meter κ δ
  | .crashed crash => (.error crash, m)
  | _ =>
    if m.reports = Count.greatest then (.error .countOverflow, m)
    else (.ok r, { m with reports := m.reports + 1 })

theorem report_eq (m : Meter κ δ) (s : σ) :
    let now := (Surroundings.read m.clock s).1
    let after := { m with last := now }.settled (m.reportAt now) (m.line s).1
    m.report s = (after.1, after.2, noting .reportFailed (m.line s)) := by
  simp only [report, line]
  generalize Surroundings.read m.clock s = reading
  obtain ⟨now, s'⟩ := reading
  simp only
  generalize emit m.destination ("\r" :: (m.reportAt now).pieces)
    (Surroundings.log (.progress (m.reportAt now).count (m.reportAt now).rate) s') = emission
  obtain ⟨delivery, s''⟩ := emission
  cases delivery with
  | crashed crash => rfl
  | done =>
    simp only [countReport, settled]
    split <;> rfl
  | failed fault =>
    simp only [countReport, settled]
    split <;> rfl

theorem settled_survives (r : Report) (m : Meter κ δ) {delivery : Delivery}
    (survives : ∀ crash, delivery ≠ .crashed crash) : m.settled r delivery = m.settled r .done := by
  cases delivery with
  | done => rfl
  | failed fault => rfl
  | crashed crash => exact absurd rfl (survives crash)

theorem settled_elsewhere (r : Report) (m : Meter κ δ) (delivery : Delivery) (d : Option δ) :
    { m with destination := d }.settled r delivery =
      ((m.settled r delivery).1, { (m.settled r delivery).2 with destination := d }) := by
  cases delivery with
  | crashed crash => rfl
  | _ =>
    simp only [settled]
    split <;> rfl

/-- Among writers that do not crash, the report depends on nothing but the time. -/
theorem report_survives {m : Meter κ δ} {s : σ} (survives : ∀ crash, (m.line s).1 ≠ .crashed crash) :
    let now := (Surroundings.read m.clock s).1
    let after := { m with last := now }.settled (m.reportAt now) .done
    m.report s = (after.1, after.2, noting .reportFailed (m.line s)) := by
  intro now after
  have settled := settled_survives (m.reportAt now) { m with last := now } survives
  rw [report_eq, settled]

theorem settled_error {r : Report} {m : Meter κ δ} {delivery : Delivery} {crash : Crash}
    (error : (m.settled r delivery).1 = .error crash) :
    crash = .countOverflow ∨ delivery = .crashed crash := by
  by_cases lost : delivery = .crashed crash
  · exact .inr lost
  · left
    cases delivery with
    | crashed other =>
      cases error
      exact absurd rfl lost
    | _ =>
      simp only [settled] at error
      split at error
      · cases error
        rfl
      · cases error

end Meter

/-- A crash of the course is an overflow, or the crash of a writer on the way. -/
def Course.Excused {α : Type} (c : Course σ κ δ α) : Prop :=
  ∀ crash, c.outcome.1 = .error crash →
    crash = .countOverflow ∨ ∃ deed ∈ c.deeds, deed.delivery = .crashed crash

namespace Course.Excused

variable {α β : Type} {c : Course σ κ δ α}

theorem quiet (a : α) (m : Meter κ δ) (s : σ) : (Course.quiet (.ok a, m, s)).Excused := by
  rintro crash ⟨⟩

theorem andThen (first : c.Excused) {f : α → Meter κ δ → σ → Course σ κ δ β}
    (second : ∀ a m s, (f a m s).Excused) : (c.andThen f).Excused := by
  obtain ⟨deeds, result, m, s⟩ := c
  cases result with
  | error crash =>
    rintro _ ⟨⟩
    exact first crash rfl
  | ok a =>
    intro crash crashed
    rcases second a m s crash crashed with overflow | ⟨deed, member, lost⟩
    · exact .inl overflow
    · exact .inr ⟨deed, List.mem_append_right _ member, lost⟩

theorem answering (excused : c.Excused) (f : α → Step.Answer δ) :
    (Step.courseAnswering f c).Excused := by
  intro crash crashed
  obtain ⟨deeds, result, m, s⟩ := c
  cases result with
  | error other =>
    cases crashed
    exact excused crash rfl
  | ok a => cases crashed

end Course.Excused

variable [Surroundings σ κ δ]

namespace Meter

theorem reporting_excused (occasion : Occasion) (m : Meter κ δ) (s : σ) :
    (m.reporting occasion s).Excused := by
  intro crash crashed
  rcases settled_error ((congrArg Prod.fst (m.report_eq s)).symm.trans crashed) with full | lost
  · exact .inl full
  · exact .inr ⟨_, List.mem_singleton_self _, lost⟩

theorem marking_excused (r : Report) (m : Meter κ δ) (s : σ) : (m.marking r s).Excused := by
  intro crash crashed
  rcases m.marking_cases r s with ⟨other, lost, ended⟩ | ⟨_, ended⟩
  · rw [ended] at crashed
    cases crashed
    exact .inr ⟨_, List.mem_singleton_self _, lost⟩
  · rw [ended] at crashed
    cases crashed

theorem reportingAt_excused (cs : List UInt64) (m : Meter κ δ) (s : σ) :
    (m.reportingAt cs s).Excused := by
  induction cs generalizing m s with
  | nil => exact .quiet () m s
  | cons c cs rest =>
    apply Course.Excused.andThen
    · exact reporting_excused .periodic { m with count := c } s
    · intro _ m s
      exact rest m s

theorem advancing_excused (target : UInt64) (m : Meter κ δ) (s : σ) :
    (m.advancing target s).Excused := by
  apply Course.Excused.andThen
  · exact m.reportingAt_excused _ s
  · intro _ m s
    exact .quiet () _ s

theorem incrementing_excused (m : Meter κ δ) (s : σ) : (m.incrementing s).Excused := by
  rw [incrementing]
  split
  · rintro _ ⟨⟩
    exact .inl rfl
  · exact m.advancing_excused _ s

theorem closing_excused (m : Meter κ δ) (s : σ) : (m.closing s).Excused := by
  rw [closing]
  split
  · exact .quiet none m s
  · apply Course.Excused.andThen
    · exact m.reporting_excused .closing s
    · intro r m s
      exact m.marking_excused r s

end Meter

/-- No failure of a writer reaches the owner of a meter. -/
theorem Step.course_excused (step : Step σ δ) (m : Meter κ δ) (s : σ) :
    (step.course m s).Excused := by
  cases step with
  | increment => exact m.incrementing_excused s |>.answering _
  | incrementBy n => exact m.advancing_excused _ s |>.answering _
  | report => exact m.reporting_excused .requested s |>.answering _
  | close => exact m.closing_excused s |>.answering _
  | redirect destination => exact .quiet _ _ _
  | meanwhile change => exact .quiet _ _ _

end Cadence
