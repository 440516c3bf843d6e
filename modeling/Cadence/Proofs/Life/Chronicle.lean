import Cadence.Proofs.Life.Timing

namespace Cadence

open Meter (doneMarker)

variable {σ κ δ : Type}

def events (minutes : List (Dealing κ δ)) : List Event :=
  minutes.filterMap fun
    | .log e => some e
    | _ => none

@[simp] theorem events_append (first second : List (Dealing κ δ)) :
    events (first ++ second) = events first ++ events second :=
  List.filterMap_append

def failures (event : Fault → Event) : Delivery → List Event
  | .failed fault => [event fault]
  | _ => []

theorem events_notes (event : Fault → Event) (delivery : Delivery) :
    events (notes event delivery : List (Dealing κ δ)) = failures event delivery := by
  cases delivery <;> rfl

theorem Emission.events {d : Option δ} {bytes : List UInt8} {delivery : Delivery}
    {dealings : List (Dealing κ δ)} (emission : Emission d bytes delivery dealings) :
    Cadence.events dealings = [] := by
  rw [Cadence.events, List.filterMap_eq_nil_iff]
  intro dealing member
  have writing := emission.isWith dealing member
  cases dealing with
  | log e => exact writing.elim
  | _ => rfl

def Call.events (call : Call δ) : List Event :=
  .progress call.report.count call.report.rate :: failures .reportFailed call.delivery

/-- The events of deeds in which a marker stands directly after the report it belongs to. -/
def chronicle : List (Deed δ) → List Event
  | [] => []
  | .report call :: .mark _ delivery :: deeds =>
    call.events ++ failures .markerFailed delivery ++
      .finished call.report.count call.report.elapsed :: chronicle deeds
  | .report call :: deeds => call.events ++ chronicle deeds
  | .mark _ _ :: deeds => chronicle deeds

def Call.Noted (clock : κ) (call : Call δ) (dealings : List (Dealing κ δ)) : Prop :=
  ∃ writing, Emission call.destination (utf8 ("\r" ++ call.report.text)) call.delivery writing ∧
    dealings = .read clock call.now :: .log (.progress call.report.count call.report.rate) ::
      writing ++ notes .reportFailed call.delivery

/-- The dealings of deeds in which every closing report, and no other, has a marker after it. -/
inductive Recorded (clock : κ) : List (Deed δ) → List (Dealing κ δ) → Prop
  | nothing : Recorded clock [] []
  | report {call deeds dealings minutes} (going : call.occasion ≠ .closing)
      (noted : call.Noted clock dealings) (rest : Recorded clock deeds minutes) :
      Recorded clock (.report call :: deeds) (dealings ++ minutes)
  | closing {call delivery deeds dealings marking minutes} (last : call.occasion = .closing)
      (noted : call.Noted clock dealings)
      (writing : Emission call.destination (utf8 doneMarker) delivery marking)
      (rest : Recorded clock deeds minutes) :
      Recorded clock (.report call :: .mark call.destination delivery :: deeds)
        (dealings ++ (marking ++ notes .markerFailed delivery ++
          .log (.finished call.report.count call.report.elapsed) :: minutes))

theorem Call.Noted.events {clock : κ} {call : Call δ} {dealings : List (Dealing κ δ)}
    (noted : call.Noted clock dealings) : Cadence.events dealings = call.events := by
  obtain ⟨writing, emission, rfl⟩ := noted
  have logged : Cadence.events (writing ++ notes .reportFailed call.delivery) =
      failures .reportFailed call.delivery := by
    rw [events_append, emission.events, events_notes, List.nil_append]
  exact congrArg (Event.progress call.report.count call.report.rate :: ·) logged

namespace Recorded

variable {clock : κ} {deeds more : List (Deed δ)} {minutes later : List (Dealing κ δ)}

theorem append (first : Recorded clock deeds minutes) (second : Recorded clock more later) :
    Recorded clock (deeds ++ more) (minutes ++ later) := by
  induction first with
  | nothing => exact second
  | report going noted rest both =>
    rw [List.append_assoc]
    exact .report going noted both
  | closing last noted writing rest both =>
    simp only [List.append_assoc, List.cons_append]
    simp only [← List.append_assoc _ (notes _ _)]
    exact .closing last noted writing both

theorem unmarked (recorded : Recorded clock deeds minutes) {destination : Option δ}
    {delivery : Delivery} {after : List (Deed δ)} :
    deeds ≠ .mark destination delivery :: after := by
  cases recorded <;> simp

theorem chronicle_report (recorded : Recorded clock deeds minutes) (call : Call δ) :
    chronicle (.report call :: deeds) = call.events ++ chronicle deeds := by
  cases deeds with
  | nil => rfl
  | cons deed deeds =>
    cases deed with
    | report next => rfl
    | mark destination delivery => exact absurd rfl recorded.unmarked

theorem events (recorded : Recorded clock deeds minutes) :
    Cadence.events minutes = chronicle deeds := by
  induction recorded with
  | nothing => rfl
  | report going noted rest logged =>
    rw [events_append, noted.events, logged, rest.chronicle_report]
  | closing last noted writing rest logged =>
    simp only [events_append, noted.events, writing.events, events_notes, chronicle, ← logged,
      List.nil_append, List.append_assoc]
    rfl

end Recorded

def Event.isProgress : Event → Bool
  | .progress _ _ => true
  | _ => false

def Event.isFinished : Event → Bool
  | .finished _ _ => true
  | _ => false

theorem countP_failures {event : Fault → Event} {p : Event → Bool}
    (other : ∀ fault, p (event fault) = false) (delivery : Delivery) :
    (failures event delivery).countP p = 0 := by
  cases delivery <;> simp [failures, other]

namespace Recorded

variable {clock : κ} {deeds : List (Deed δ)} {minutes : List (Dealing κ δ)}

theorem countP_progress (recorded : Recorded clock deeds minutes) :
    (chronicle deeds).countP Event.isProgress = (calls deeds).length := by
  have failed (delivery : Delivery) :
      (failures .reportFailed delivery).countP Event.isProgress = 0 :=
    countP_failures (fun _ => rfl) delivery
  have unmarked (delivery : Delivery) :
      (failures .markerFailed delivery).countP Event.isProgress = 0 :=
    countP_failures (fun _ => rfl) delivery
  induction recorded with
  | nothing => rfl
  | report going noted rest counted =>
    simp [rest.chronicle_report, Call.events, List.countP_cons, failed, counted, Event.isProgress]
  | closing last noted writing rest counted =>
    simp [chronicle, Call.events, List.countP_cons, failed, unmarked, counted, Event.isProgress]

theorem countP_finished (recorded : Recorded clock deeds minutes) :
    (chronicle deeds).countP Event.isFinished = (marks deeds).length := by
  have failed (delivery : Delivery) :
      (failures .reportFailed delivery).countP Event.isFinished = 0 :=
    countP_failures (fun _ => rfl) delivery
  have unmarked (delivery : Delivery) :
      (failures .markerFailed delivery).countP Event.isFinished = 0 :=
    countP_failures (fun _ => rfl) delivery
  induction recorded with
  | nothing => rfl
  | report going noted rest counted =>
    simp [rest.chronicle_report, Call.events, failed, counted, Event.isFinished]
  | closing last noted writing rest counted =>
    simp [chronicle, Call.events, List.countP_cons, failed, unmarked, counted, Event.isFinished]

end Recorded

structure Course.Records {α : Type} (c : Course (Minuted σ κ δ) κ δ α) (clock : κ)
    (s : Minuted σ κ δ) : Prop where
  same : c.outcome.2.1.clock = clock
  minutes : ∃ dealings, c.outcome.2.2.minutes = s.minutes ++ dealings ∧
    Recorded clock c.deeds dealings

namespace Course.Records

variable {α β : Type} {clock : κ} {s : Minuted σ κ δ}

theorem quiet {m : Meter κ δ} {s' : Minuted σ κ δ} (same : m.clock = clock)
    (minutes : s'.minutes = s.minutes) (result : Attempt α) :
    (Course.quiet (result, m, s')).Records clock s :=
  ⟨same, [], by simp [Course.quiet, minutes], .nothing⟩

theorem andThen {c : Course (Minuted σ κ δ) κ δ α}
    {f : α → Meter κ δ → Minuted σ κ δ → Course (Minuted σ κ δ) κ δ β} (first : c.Records clock s)
    (second : ∀ a m s', m.clock = clock → (f a m s').Records clock s') :
    (c.andThen f).Records clock s := by
  obtain ⟨deeds, result, m, s'⟩ := c
  obtain ⟨same, dealings, minutes, recorded⟩ := first
  cases result with
  | error crash => exact ⟨same, dealings, minutes, recorded⟩
  | ok a =>
    obtain ⟨same', others, minutes', recorded'⟩ := second a m s' same
    refine ⟨same', dealings ++ others, ?_, recorded.append recorded'⟩
    change (f a m s').outcome.2.2.minutes = _
    rw [minutes', ← List.append_assoc]
    exact congrArg (· ++ others) minutes

theorem answering {c : Course (Minuted σ κ δ) κ δ α} (records : c.Records clock s)
    (f : α → Step.Answer δ) : (Step.courseAnswering f c).Records clock s :=
  ⟨records.same, records.minutes⟩

end Course.Records

namespace Meter

variable [Surroundings σ κ δ]

theorem report_noted (occasion : Occasion) (m : Meter κ δ) (s : Minuted σ κ δ) :
    ∃ dealings, (m.report s).2.2.minutes = s.minutes ++ dealings ∧
      (m.call occasion s).Noted m.clock dealings := by
  obtain ⟨writing, minutes, emission⟩ := m.report_minutes occasion s
  exact ⟨_, minutes, writing, emission, rfl⟩

theorem reporting_records {occasion : Occasion} (going : occasion ≠ .closing) (m : Meter κ δ)
    (s : Minuted σ κ δ) : (m.reporting occasion s).Records m.clock s := by
  obtain ⟨dealings, minutes, noted⟩ := m.report_noted occasion s
  obtain ⟨last, reports, frame⟩ := m.report_frame s
  have same : (m.report s).2.1.clock = m.clock := by rw [frame]
  refine ⟨same, dealings, minutes, ?_⟩
  rw [← List.append_nil dealings]
  exact .report going noted .nothing

theorem reportingAt_records (cs : List UInt64) (m : Meter κ δ) (s : Minuted σ κ δ) :
    (m.reportingAt cs s).Records m.clock s := by
  induction cs generalizing m s with
  | nil => exact .quiet rfl rfl _
  | cons c cs rest =>
    apply Course.Records.andThen
    · exact reporting_records (by decide) { m with count := c } s
    · intro _ m' s' same
      rw [← same]
      exact rest m' s'

theorem advancing_records (target : UInt64) (m : Meter κ δ) (s : Minuted σ κ δ) :
    (m.advancing target s).Records m.clock s := by
  apply Course.Records.andThen
  · exact m.reportingAt_records _ s
  · intro _ m' s' same
    exact .quiet (m := { m' with count := target }) same rfl _

theorem incrementing_records (m : Meter κ δ) (s : Minuted σ κ δ) :
    (m.incrementing s).Records m.clock s := by
  rw [incrementing]
  split
  · exact .quiet rfl rfl _
  · exact m.advancing_records _ s

theorem terminal_records (m : Meter κ δ) (s : Minuted σ κ δ) :
    (m.terminal s).Records m.clock s := by
  obtain ⟨dealings, minutes, noted⟩ := m.report_noted .closing s
  rw [report_surroundings] at minutes
  obtain ⟨marking, marked, writing⟩ :=
    emit_minutes m.destination [doneMarker] (noting .reportFailed (m.line s))
  refine ⟨rfl, _, ?_, .closing rfl noted writing .nothing⟩
  rw [terminal, Minuted.minutes_log, noting_minutes, marked, minutes]
  simp only [List.append_assoc]

end Meter

variable [Surroundings σ κ δ] {places : Option δ → Prop}

theorem Peaceful.minuted {calm : σ → Prop} (peaceful : Peaceful places calm) :
    Peaceful (σ := Minuted σ κ δ) places fun s => calm s.state where
  write bytes place calmly := peaceful.write bytes place calmly
  flush place calmly := peaceful.flush place calmly
  read clock calmly := peaceful.read clock calmly
  log e calmly := peaceful.log e calmly

omit [Surroundings σ κ δ] in
theorem Step.Within.minuted {calm : σ → Prop} {step : Step σ δ}
    (within : step.Within places fun _ => calm) :
    (step.minuted : Step (Minuted σ κ δ) δ).Within places fun _ s => calm s.state := by
  cases step with
  | redirect destination => exact within
  | meanwhile change => exact fun deeds s => within deeds s.state
  | _ => exact True.intro

theorem Smooth.records {known : List (Deed δ) → Minuted σ κ δ → Prop}
    {steps : List (Step (Minuted σ κ δ) δ)} {deeds : List (Deed δ)} {m : Meter κ δ}
    {s : Minuted σ κ δ} (smooth : Smooth places known steps deeds m s)
    (reliable : Reliable places known) (step : Step σ δ)
    (few : (calls (deeds ++ (step.minuted.course m s).deeds)).length ≤ Count.greatest.toNat) :
    (step.minuted.course m s).Records m.clock s := by
  cases step with
  | increment => exact (m.incrementing_records s).answering _
  | incrementBy n => exact (m.advancing_records _ s).answering _
  | report => exact (Meter.reporting_records (by decide) m s).answering _
  | close =>
    refine Course.Records.answering ?_ _
    by_cases shut : m.finished = true
    · rw [Meter.closing_finished shut]
      exact .quiet rfl rfl _
    · have before : .close ∉ steps := fun member => shut (smooth.finished.mpr member)
      rw [smooth.close_open reliable before few]
      exact m.terminal_records s
  | redirect destination => exact .quiet rfl rfl _
  | meanwhile change => exact ⟨rfl, [], (List.append_nil _).symm, .nothing⟩

theorem recorded_of_run {calm : σ → Prop} (peaceful : Peaceful places calm) (interval : Interval)
    {destination : Option δ} (clock : κ) {s : σ} (place : places destination) (calmly : calm s)
    (steps : List (Step σ δ)) (within : ∀ step ∈ steps, step.Within places fun _ => calm)
    (few : (calls (Step.journal (steps.map Step.minuted)
      (Meter.begin interval destination clock (Minuted.fresh s : Minuted σ κ δ)))).length ≤
        Count.greatest.toNat) :
    let start : _ × Minuted σ κ δ := Meter.begin interval destination clock (.fresh s)
    let deeds := Step.journal (steps.map Step.minuted) start
    let now := Step.through (steps.map Step.minuted) start
    Smooth places (fun _ s => calm s.state) (steps.map Step.minuted) deeds now.1 now.2 ∧
      now.1.clock = clock ∧
      ∃ dealings, now.2.minutes = start.2.minutes ++ dealings ∧ Recorded clock deeds dealings := by
  intro start
  have reliable := (peaceful.minuted (κ := κ)).reliable
  have initially : calm start.2.state := peaceful.log _ (peaceful.read clock calmly)
  -- from the end, since what a close records depends on all steps before it
  induction steps using List.reverseRecOn with
  | nil =>
    refine ⟨?_, rfl, [], (List.append_nil _).symm, .nothing⟩
    exact Smooth.run reliable interval clock _ place initially [] (by simp) (Nat.zero_le _)
  | append_singleton steps step before =>
    rw [List.map_append, List.map_singleton] at few ⊢
    have bound := few
    rw [Step.journal_append, Step.journal, Step.journal, List.append_nil] at few
    have fewer := few
    rw [calls_append, List.length_append] at fewer
    obtain ⟨smooth, same, dealings, minutes, recorded⟩ := before
      (fun step member => within step (List.mem_append_left _ member))
      (Nat.le_of_add_right_le fewer)
    have records := smooth.records reliable step few
    rw [same] at records
    obtain ⟨same', others, minutes', recorded'⟩ := records
    rw [Step.course_outcome] at same' minutes'
    refine ⟨?_, ?_, dealings ++ others, ?_, ?_⟩
    · refine Smooth.run reliable interval clock _ place initially _ ?_ bound
      intro lifted member
      rw [← List.map_singleton (f := Step.minuted), ← List.map_append] at member
      obtain ⟨other, among, rfl⟩ := List.mem_map.mp member
      exact (within other among).minuted
    · rw [Step.through_append]
      exact same'
    · rw [Step.through_append, ← List.append_assoc, ← minutes]
      exact minutes'
    · rw [Step.journal_append, Step.journal, Step.journal, List.append_nil]
      exact recorded.append recorded'

/-- Among writers that fail but do not crash, the log of a life begins with the start of the meter.
Each report is logged before it is written, and a warning follows if its emission failed. The
closing report is followed by a warning if the marker's emission failed and then by the end of the
meter. At every moment between steps there are as many reports in the log as the meter has counted,
and the end stands there once if the meter is finished, and otherwise not. -/
theorem events_of_life {calm : σ → Prop} (peaceful : Peaceful places calm) (interval : Interval)
    {destination : Option δ} (clock : κ) {s : σ} (place : places destination) (calmly : calm s)
    (steps : List (Step σ δ)) (within : ∀ step ∈ steps, step.Within places fun _ => calm)
    (few : (calls (Step.journal ((steps ++ [Step.close]).map Step.minuted)
      (Meter.begin interval destination clock (Minuted.fresh s : Minuted σ κ δ)))).length <
        18446744073709551616) :
    let start : _ × Minuted σ κ δ := Meter.begin interval destination clock (.fresh s)
    (∀ before, before <+: steps ++ [.close] →
      let deeds := Step.journal (before.map Step.minuted) start
      let m := (Step.through (before.map Step.minuted) start).1
      let minutes := (Step.through (before.map Step.minuted) start).2.minutes
      events minutes = .started interval.records destination.isNone :: chronicle deeds ∧
      (∃ dealings, minutes = .read clock start.1.start ::
          .log (.started interval.records destination.isNone) :: dealings ∧
        Recorded clock deeds dealings) ∧
      (events minutes).countP (·.isProgress) = m.reports.toNat ∧
      (events minutes).countP (·.isFinished) = (if m.finished then 1 else 0) ∧
      (m.finished = true ↔ .close ∈ before)) ∧
    (∀ (occasion : Occasion) (m : Meter κ δ) (s : Minuted σ κ δ) (r : Report),
      (m.report s).1 = .ok r ∨ (m.close s).1 = .ok (some r) → r = (m.call occasion s).report) ∧
    (∀ (m : Meter κ δ) (s : Minuted σ κ δ), (m.retire s).2 = (Step.close.run m s).2.2) := by
  intro start
  refine ⟨?_, ?_, Meter.retire_surroundings⟩
  · intro before front
    obtain ⟨after, parts⟩ := front
    have all (step : Step σ δ) (member : step ∈ before) : step.Within places fun _ => calm := by
      have among : step ∈ steps ++ [.close] := by
        rw [← parts]
        exact List.mem_append_left _ member
      rcases List.mem_append.mp among with among | among
      · exact within step among
      · rw [List.mem_singleton.mp among]
        exact True.intro
    have fewer : (calls (Step.journal (before.map Step.minuted) start)).length ≤
        Count.greatest.toNat := by
      rw [← parts, List.map_append, Step.journal_append, calls_append, List.length_append] at few
      exact Nat.le_of_lt_succ (Nat.lt_of_le_of_lt (Nat.le_add_right _ _) few)
    obtain ⟨smooth, _, dealings, minutes, recorded⟩ :=
      recorded_of_run peaceful interval clock place calmly before all fewer
    have logged : events (Step.through (before.map Step.minuted) start).2.minutes =
        .started interval.records destination.isNone ::
          chronicle (Step.journal (before.map Step.minuted) start) := by
      rw [minutes, events_append, recorded.events]
      rfl
    refine ⟨logged, ⟨dealings, minutes, recorded⟩, ?_, ?_, ?_⟩
    · rw [logged, List.countP_cons_of_neg Bool.false_ne_true, recorded.countP_progress]
      exact smooth.reports.symm
    · rw [logged, List.countP_cons_of_neg Bool.false_ne_true, recorded.countP_finished]
      exact smooth.marked
    · rw [smooth.finished, List.mem_map]
      constructor
      · intro closed
        obtain ⟨step, member, same⟩ := closed
        cases step with
        | close => exact member
        | _ => cases same
      · exact fun member => ⟨.close, member, rfl⟩
  · intro occasion m s r returned
    rcases returned with returned | returned
    · exact m.report_returns occasion s returned
    · exact m.close_returns s returned

open Session

/-- A pipe that takes the first report, refuses the second in its middle, and the marker. -/
theorem events_of_life_on_pipe :
    let pipe := Outlet.pipe { Faults.none with limit := some 60, chunk := some 4, interrupts := 2 }
    let rig := { Rig.empty with clocks := #[.scripted Rig.origin ⟨1⟩], outlets := #[pipe] }
    let start : _ × Minuted Rig ClockHandle Nat :=
      Meter.begin ⟨2, by decide⟩ (some 0) (.numbered 0) (.fresh rig)
    let steps : List (Step Rig Nat) := [.increment, .increment, .close]
    let now := Step.through (steps.map Step.minuted) start
    rig.Calm ∧ events now.2.minutes =
        .started 2 false :: chronicle (Step.journal (steps.map Step.minuted) start) ∧
      (events now.2.minutes).countP (·.isProgress) = now.1.reports.toNat ∧
      (events now.2.minutes).countP (·.isFinished) = 1 := by
  intro pipe rig start steps now
  have calm : rig.Calm := by
    intro n
    cases n <;> exact ⟨by simp [rig, pipe, Rig.outlet, Outlet.pipe, Faults.none, Outlet.empty],
      by simp [rig, pipe, Rig.outlet, Outlet.pipe, Faults.none, Outlet.empty]⟩
  have few : (calls (Step.journal ((steps ++ [Step.close]).map Step.minuted) start)).length <
      18446744073709551616 :=
    Nat.lt_of_le_of_lt (calls_journal_le _ start) (by decide)
  have life := (events_of_life Rig.peaceful ⟨2, by decide⟩ (.numbered 0) True.intro calm steps
    (by simp [steps, Step.Within]) few).1 steps ⟨[.close], rfl⟩
  obtain ⟨logged, _, reported, ended, finished⟩ := life
  rw [finished.mpr (by simp [steps])] at ended
  exact ⟨calm, logged, reported, ended⟩

end Cadence
