import Cadence.Proofs.Emission.Minutes
import Cadence.Proofs.Life.Twins

namespace Cadence

variable {σ κ δ : Type}

def notes (event : Fault → Event) : Delivery → List (Dealing κ δ)
  | .failed fault => [.log (event fault)]
  | _ => []

theorem readings_notes (event : Fault → Event) (delivery : Delivery) :
    readings (notes event delivery : List (Dealing κ δ)) = [] := by
  cases delivery <;> rfl

theorem taken_notes (event : Fault → Event) (delivery : Delivery) :
    taken (notes event delivery : List (Dealing κ δ)) = [] := by
  cases delivery <;> rfl

namespace Meter

variable [Surroundings σ κ δ]

theorem noting_minutes (event : Fault → Event) (emission : Delivery × Minuted σ κ δ) :
    (noting event emission).minutes = emission.2.minutes ++ notes event emission.1 := by
  obtain ⟨delivery, s⟩ := emission
  cases delivery with
  | done => exact (List.append_nil s.minutes).symm
  | failed fault => rfl
  | crashed crash => exact (List.append_nil s.minutes).symm

theorem report_minutes (occasion : Occasion) (m : Meter κ δ) (s : Minuted σ κ δ) :
    let call := m.call occasion s
    ∃ dealings, (m.report s).2.2.minutes = s.minutes ++ (.read m.clock call.now ::
        .log (.progress call.report.count call.report.rate) ::
          dealings ++ notes .reportFailed call.delivery) ∧
      Emission m.destination (utf8 ("\r" ++ call.report.text)) call.delivery dealings := by
  intro call
  obtain ⟨dealings, minutes, emission⟩ := emit_minutes m.destination ("\r" :: call.report.pieces)
    (Surroundings.log (.progress call.report.count call.report.rate)
      (Surroundings.read m.clock s).2)
  rw [String.join_cons] at emission
  refine ⟨dealings, ?_, emission⟩
  have line : (m.line s).2.minutes = s.minutes ++ [.read m.clock call.now] ++
      [.log (.progress call.report.count call.report.rate)] ++ dealings := minutes
  rw [report_surroundings, noting_minutes, line]
  simp only [List.append_assoc, List.cons_append]
  rfl

theorem marking_minutes (r : Report) (m : Meter κ δ) (s : Minuted σ κ δ) :
    let delivery := (emit m.destination [doneMarker] s).1
    ∃ dealings, Emission m.destination (utf8 doneMarker) delivery dealings ∧
      ((∃ crash, delivery = .crashed crash ∧ (m.marking r s).outcome.2.1 = m ∧
        (m.marking r s).outcome.2.2.minutes = s.minutes ++ dealings) ∨
      ((∀ crash, delivery ≠ .crashed crash) ∧
        (m.marking r s).outcome.2.1 = { m with finished := true } ∧
        (m.marking r s).outcome.2.2.minutes = s.minutes ++ (dealings ++
          notes .markerFailed delivery ++ [.log (.finished r.count r.elapsed)]))) := by
  intro delivery
  obtain ⟨dealings, minutes, emission⟩ := emit_minutes m.destination [doneMarker] s
  refine ⟨dealings, emission, ?_⟩
  rcases m.marking_cases r s with ⟨crash, lost, ended⟩ | ⟨survives, ended⟩
  · rw [ended]
    exact .inl ⟨crash, lost, rfl, minutes⟩
  · rw [ended]
    refine .inr ⟨survives, rfl, ?_⟩
    rw [Minuted.minutes_log, noting_minutes, minutes]
    simp only [List.append_assoc, delivery]

end Meter

def Step.minuted : Step σ δ → Step (Minuted σ κ δ) δ := .among Minuted.meanwhile

variable [Surroundings σ κ δ]

namespace Meter

theorem line_state (m : Meter κ δ) (s : Minuted σ κ δ) :
    m.line s.state = ((m.line s).1, (m.line s).2.state) := by
  let now := (Surroundings.read m.clock s).1
  exact emit_state m.destination ("\r" :: (m.reportAt now).pieces)
    (Surroundings.log (.progress (m.reportAt now).count (m.reportAt now).rate)
      (Surroundings.read m.clock s).2)

theorem noting_state (event : Fault → Event) (delivery : Delivery) (s : Minuted σ κ δ) :
    noting event (delivery, s.state) = (noting event (delivery, s)).state := by
  cases delivery <;> rfl

theorem report_state (m : Meter κ δ) (s : Minuted σ κ δ) :
    m.report s.state = ((m.report s).1, (m.report s).2.1, (m.report s).2.2.state) := by
  rw [report_eq, report_eq, line_state, noting_state]
  rfl

theorem marking_state (r : Report) (m : Meter κ δ) (s : Minuted σ κ δ) :
    (m.marking r s.state).outcome =
      ((m.marking r s).outcome.1, (m.marking r s).outcome.2.1,
        (m.marking r s).outcome.2.2.state) := by
  rw [marking, marking, emit_state]
  generalize emit m.destination [doneMarker] s = emission
  obtain ⟨delivery, s'⟩ := emission
  cases delivery <;> rfl

end Meter

theorem Minuted.twins : Twins (fun _ => True)
    fun (life : Meter κ δ × σ) (life' : Meter κ δ × Minuted σ κ δ) =>
      life = (life'.1, life'.2.state) where
  same := by
    rintro _ _ m s ⟨⟩
    exact ⟨rfl, rfl, rfl⟩
  count := by
    rintro _ _ m s ⟨⟩ c
    rfl
  report := by
    rintro _ _ m s ⟨⟩ occasion _ _
    have report := m.report_state s
    exact ⟨(congrArg Prod.fst report).symm, congrArg Prod.snd report⟩
  mark := by
    rintro _ _ m s ⟨⟩ r _ _
    have marking := m.marking_state r s
    exact ⟨(congrArg Prod.fst marking).symm, congrArg Prod.snd marking⟩

/-- Keeping minutes changes nothing. -/
theorem minutes_change_nothing (interval : Interval) (destination : Option δ) (clock : κ) (s : σ)
    (steps : List (Step σ δ)) :
    let start := Meter.begin interval destination clock s
    let start' : _ × Minuted σ κ δ := Meter.begin interval destination clock (Minuted.fresh s)
    Step.answers (steps.map Step.minuted) start' = Step.answers steps start ∧
      (Step.through (steps.map Step.minuted) start').2.state = (Step.through steps start).2 := by
  intro start start'
  have same : steps.map (Step.among id) = steps := by
    refine (List.map_congr_left fun step _ => ?_).trans (List.map_id steps)
    cases step <;> rfl
  have alike : start = (start'.1, start'.2.state) := rfl
  have run := Minuted.twins.run id Minuted.meanwhile ?_ ?_ ?_ steps alike
    (fun _ _ => True.intro) (fun _ _ => True.intro)
  · rw [same] at run
    exact ⟨run.1, congrArg Prod.snd run.2.symm⟩
  · rintro _ _ m s ⟨⟩
    rfl
  · rintro destination _ _ m s ⟨⟩
    rfl
  · rintro change _ _ m s ⟨⟩
    rfl

end Cadence
