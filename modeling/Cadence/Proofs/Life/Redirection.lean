import Cadence.Proofs.Life.Receipts
import Cadence.Proofs.Life.Writers

namespace Cadence

open Meter (doneMarker)

variable {σ τ κ δ ω ω' : Type}

def Step.isRedirect : Step σ δ → Bool
  | .redirect _ => true
  | _ => false

def Step.staying (steps : List (Step σ δ)) : List (Step σ δ) := steps.filter (!·.isRedirect)

theorem Step.IsOwn.staying {step : Step σ δ} (own : step.IsOwn) (steps : List (Step σ δ)) :
    Step.staying (step :: steps) = step :: Step.staying steps := by
  apply List.filter_cons_of_pos
  cases step with
  | redirect destination => exact own.elim
  | _ => rfl

def Step.handed (steps : List (Step σ δ)) : List (Option δ) :=
  steps.filterMap fun
    | .redirect destination => some destination
    | _ => none

def Step.Answer.former? : Answer δ → Option (Option δ)
  | .former destination => some destination
  | _ => none

def Step.former (answers : List (Attempt (Answer δ) × Meter κ δ)) : List (Option δ) :=
  answers.filterMap (·.1.toOption.bind Answer.former?)

theorem Step.former?_answering {α : Type} {f : α → Answer δ} (other : ∀ a, (f a).former? = none)
    (outcome : Attempt α × Meter κ δ × σ) :
    (answering f outcome).1.toOption.bind Answer.former? = none := by
  obtain ⟨result, life⟩ := outcome
  cases result with
  | error crash => rfl
  | ok a => exact other a

section

variable [Surroundings σ κ δ]

theorem Step.IsOwn.former? {step : Step σ δ} (own : step.IsOwn) (m : Meter κ δ) (s : σ) :
    (step.run m s).1.toOption.bind Answer.former? = none := by
  cases step with
  | increment => exact former?_answering (fun _ => rfl) _
  | incrementBy n => exact former?_answering (fun _ => rfl) _
  | report => exact former?_answering (fun _ => rfl) _
  | close => exact former?_answering (fun _ => rfl) _
  | redirect destination => exact own.elim
  | meanwhile change => exact own.elim

/-- Each writer handed to a meter is either the one it has or was handed back once. -/
theorem Step.handed_eq (steps : List (Step σ δ)) (life : Meter κ δ × σ) :
    life.1.destination :: handed steps =
      former (answers steps life) ++ [(through steps life).1.destination] := by
  induction steps generalizing life with
  | nil => rfl
  | cons step steps rest =>
    have later := rest (step.run life.1 life.2).2
    obtain ⟨m, s⟩ := life
    rcases step.own_or_other with own | ⟨destination, rfl⟩ | ⟨change, rfl⟩
    · have unhanded : handed (step :: steps) = handed steps := by
        apply List.filterMap_cons_none
        cases step with
        | redirect destination => exact own.elim
        | _ => rfl
      have kept : former (answers (step :: steps) (m, s)) =
          former (answers steps (step.run m s).2) :=
        List.filterMap_cons_none (own.former? m s)
      have same : (step.run m s).2.1.destination = m.destination := (Placed.law.step step own m s).1
      rw [unhanded, kept, ← same]
      exact later
    · exact congrArg (m.destination :: ·) later
    · exact later

end

structure Elsewhere {clocks : Clocks κ τ} {writers : Writers δ ω} {writers' : Writers δ ω'}
    (d : Option δ) (life : Meter κ δ × Minuted (Parted clocks writers) κ δ)
    (life' : Meter κ δ × Minuted (Parted clocks writers') κ δ) : Prop where
  meter : life'.1 = { life.1 with destination := d }
  time : life'.2.state.time = life.2.state.time
  taken : taken life'.2.minutes = taken life.2.minutes

namespace Elsewhere

variable {clocks : Clocks κ τ} {writers : Writers δ ω} {writers' : Writers δ ω'} {d : Option δ}

theorem twins [DecidableEq δ] :
    Twins (· = .done) fun (life : Meter κ δ × Minuted (Parted clocks writers) κ δ)
      (life' : Meter κ δ × Minuted (Parted clocks writers') κ δ) => Elsewhere d life life' where
  same := by
    rintro m s _ s' ⟨rfl, _, _⟩
    exact ⟨rfl, rfl, rfl⟩
  count := by
    rintro m s _ s' ⟨rfl, time, taken⟩ c
    exact ⟨rfl, time, taken⟩
  report := by
    rintro m s _ s' ⟨rfl, time, taken⟩ occasion fitting fitting'
    have delivered : (m.line s).1 = .done := fitting _ List.mem_cons_self
    have delivered' : ({ m with destination := d }.line s').1 = .done :=
      fitting' _ List.mem_cons_self
    have now : (Surroundings.read m.clock s').1 = (Surroundings.read m.clock s).1 :=
      congrArg (fun time => (clocks.read m.clock time).1) time
    have settled := Meter.settled_elsewhere (m.reportAt (Surroundings.read m.clock s).1)
      { m with last := (Surroundings.read m.clock s).1 } .done d
    have ended := Meter.report_survives (m := m) (s := s) (by simp [delivered])
    have ended' := Meter.report_survives (m := { m with destination := d }) (s := s')
      (by simp [delivered'])
    rw [now] at ended'
    change ({ m with destination := d }.report s').1 = (m.report s).1 ∧
      Elsewhere d (m.report s).2 ({ m with destination := d }.report s').2
    refine ⟨?_, ?_, ?_, ?_⟩
    · rw [ended, ended']
      exact congrArg Prod.fst settled
    · rw [ended, ended']
      exact congrArg Prod.snd settled
    · rw [time_report, time_report, time]
    · have text := (Receives.report occasion m s delivered).all
      have text' := (Receives.report occasion { m with destination := d } s' delivered').all
      have said : written [.report ({ m with destination := d }.call occasion s')] =
          written [.report (m.call occasion s)] :=
        congrArg (fun now => String.join ["\r" ++ (m.reportAt now).text]) now
      rw [text, text', said]
      exact congrArg (· ++ _) taken
  mark := by
    rintro m s _ s' ⟨rfl, time, taken⟩ r fitting fitting'
    have delivered : (emit m.destination [doneMarker] s).1 = .done := fitting _ List.mem_cons_self
    have delivered' : (emit d [doneMarker] s').1 = .done := fitting' _ List.mem_cons_self
    have text := (Receives.marking r m s delivered).all
    have text' := (Receives.marking r { m with destination := d } s' delivered').all
    rcases m.marking_cases r s with ⟨crash, lost, _⟩ | ⟨_, ended⟩
    · cases delivered.symm.trans lost
    rcases Meter.marking_cases r { m with destination := d } s' with ⟨crash, lost, _⟩ | ⟨_, ended'⟩
    · cases delivered'.symm.trans lost
    refine ⟨?_, ?_, ?_, ?_⟩
    · rw [ended, ended']
    · rw [ended, ended']
    · rw [time_marking, time_marking, time]
    · rw [text, text']
      exact congrArg (· ++ utf8 doneMarker) taken

theorem through [DecidableEq δ] (steps : List (Step τ δ))
    {life : Meter κ δ × Minuted (Parted clocks writers) κ δ}
    {life' : Meter κ δ × Minuted (Parted clocks writers') κ δ} (start : Elsewhere d life life')
    (fitting : Fitting (· = .done) (Step.journal (steps.map Step.passing) life))
    (fitting' : Fitting (· = .done)
      (Step.journal ((Step.staying steps).map Step.passing) life')) :
    Elsewhere d (Step.through (steps.map Step.passing) life)
      (Step.through ((Step.staying steps).map Step.passing) life') := by
  induction steps generalizing life life' with
  | nil => exact start
  | cons step steps rest =>
    obtain ⟨m, s⟩ := life
    obtain ⟨m', s'⟩ := life'
    rcases step.own_or_other with own | ⟨destination, rfl⟩ | ⟨change, rfl⟩
    · rw [own.staying] at fitting' ⊢
      obtain ⟨first, others⟩ := List.forall_mem_append.mp fitting
      obtain ⟨first', others'⟩ := List.forall_mem_append.mp fitting'
      have after := (twins.step step own start first first').2
      rw [Step.course_outcome, Step.course_outcome] at after
      exact rest after others others'
    · -- the other life does not take this step, and its destination is not compared
      refine rest ?_ fitting fitting'
      obtain ⟨meter, time, taken⟩ := start
      exact ⟨meter, time, taken⟩
    · refine rest ?_ fitting fitting'
      obtain ⟨meter, time, taken⟩ := start
      exact ⟨meter, congrArg change time, taken⟩

end Elsewhere

theorem Step.handed_among (lift : (τ → τ) → σ → σ) (steps : List (Step τ δ)) :
    handed (steps.map (Step.among lift)) = handed steps := by
  rw [handed, List.filterMap_map]
  apply List.filterMap_congr
  intro step _
  cases step <;> rfl

/-- Without redirections everything is written in one place. -/
theorem Step.journal_destination [Surroundings σ κ δ] (lift : (τ → τ) → σ → σ)
    (steps : List (Step τ δ)) (life : Meter κ δ × σ) :
    ∀ deed ∈ journal ((staying steps).map (Step.among lift)) life,
      deed.destination = life.1.destination := by
  induction steps generalizing life with
  | nil => exact List.forall_mem_nil _
  | cons step steps rest =>
    obtain ⟨m, s⟩ := life
    rcases step.own_or_other with own | ⟨destination, rfl⟩ | ⟨change, rfl⟩
    · -- the meter's own steps write where it is and leave it there
      obtain ⟨same, here⟩ := Placed.law.step (step.among lift) (own.among lift) m s
      have later := rest ((step.among lift).run m s).2
      rw [own.staying]
      rw [same] at later
      exact List.forall_mem_append.mpr ⟨here, later⟩
    · exact rest (m, s)
    · exact rest (m, lift change s)

/-- A meter writes each text whole at the destination it has just then, so a destination receives
the texts made while the meter had it. Put together in order they are what the meter writes in one
place if it is never redirected. A redirection does nothing else, and hands back the destination
before, so each one handed to the meter is the one it has or was handed back once. -/
theorem output_of_redirected_run [DecidableEq δ] (clocks : Clocks κ τ) (writers : Writers δ ω)
    (writers' : Writers δ ω') (interval : Interval) (destination d : Option δ) (clock : κ)
    (time : τ) (ink : ω) (ink' : ω') (steps : List (Step τ δ)) :
    let start : _ × Minuted (Parted clocks writers) κ δ :=
      Meter.begin interval destination clock (.fresh ⟨time, ink⟩)
    let deeds := Step.journal (steps.map Step.passing) start
    let last := Step.through (steps.map Step.passing) start
    let single : _ × Minuted (Parted clocks writers') κ δ :=
      Meter.begin interval d clock (.fresh ⟨time, ink'⟩)
    let stays := (Step.staying steps).map Step.passing
    let lastly := Step.through stays single
    (∀ (step : Step (Minuted (Parted clocks writers) κ δ) δ) (m : Meter κ δ) s,
      ∀ deed ∈ (step.course m s).deeds, deed.destination = m.destination) ∧
    (∀ d (m : Meter κ δ) (s : Minuted (Parted clocks writers) κ δ),
      (Step.redirect d).run m s = (.ok (.former m.destination), { m with destination := d }, s)) ∧
    destination :: Step.handed steps =
      Step.former (Step.answers (steps.map Step.passing) start) ++ [last.1.destination] ∧
    (∀ (m : Meter κ δ) (s : Minuted (Parted clocks writers) κ δ),
      (m.retire s).2 = (Step.close.run m s).2.2) ∧
    (Fitting (· = .done) deeds →
      (∀ d, received d last.2.minutes =
        utf8 (written (deeds.filter (·.destination = d)))) ∧
      (Fitting (· = .done) (Step.journal stays single) →
        received d lastly.2.minutes = utf8 (written deeds))) := by
  intro start deeds last single stays lastly
  refine ⟨Step.course_destination, fun _ _ _ => rfl, ?_, ?_, ?_⟩
  · have handed := Step.handed_eq (steps.map Step.passing) start
    rw [Step.passing, Step.handed_among] at handed
    exact handed
  · exact Meter.retire_surroundings
  · intro fitting
    have receives : Receives start deeds last :=
      Receives.run Minuted.passing (fun _ _ => rfl) steps start fitting
    constructor
    · intro d
      rw [receives.each, received_begin]
      rfl
    · intro fitting'
      have receives' : Receives single (Step.journal stays single) lastly :=
        Receives.run Minuted.passing (fun _ _ => rfl) (Step.staying steps) single fitting'
      have elsewhere : Elsewhere d last lastly := by
        apply Elsewhere.through steps _ fitting fitting'
        exact ⟨rfl, rfl, rfl⟩
      have together : (Step.journal stays single).filter (·.destination = d) =
          Step.journal stays single :=
        List.filter_eq_self.mpr fun deed member =>
          decide_eq_true (Step.journal_destination _ steps single deed member)
      calc received d lastly.2.minutes
          = utf8 (written (Step.journal stays single)) := by
            rw [receives'.each, received_begin, together]
            rfl
        _ = taken lastly.2.minutes := receives'.all.symm
        _ = taken last.2.minutes := elsewhere.taken
        _ = utf8 (written deeds) := receives.all

section

variable {clocks : Clocks κ τ} {writers : Writers δ ω}

structure Writers.Sound (writers : Writers δ ω) : Prop where
  write : ∀ d bytes ink, bytes ≠ [] → (writers.write d bytes ink).1 = .interrupted ∨
    ∃ n, (writers.write d bytes ink).1 = .accepted (n + 1)
  flush : ∀ d ink, (writers.flush d ink).1 = .done

theorem Writers.Sound.emit (sound : writers.Sound) (d : Option δ) (pieces : List String)
    (s : Minuted (Parted clocks writers) κ δ) : (emit d pieces s).1 = .done := by
  have taking : Taking (Minuted (Parted clocks writers) κ δ) d :=
    fun bytes s some => sound.write d bytes s.state.ink some
  rw [taking.emit]
  exact sound.flush d _

theorem Writers.Sound.fitting (sound : writers.Sound) (steps : List (Step τ δ))
    (life : Meter κ δ × Minuted (Parted clocks writers) κ δ) :
    Fitting (· = .done) (Step.journal (steps.map Step.passing) life) := by
  have law : Law fun (_ : Meter κ δ × Minuted (Parted clocks writers) κ δ) deeds _ =>
      Fitting (· = .done) deeds :=
    Fitting.law sound.emit
  exact law.run (fun _ _ _ => List.forall_mem_nil _) (fun _ _ _ => List.forall_mem_nil _) steps life

end

def Writers.patient : Writers Nat Nat where
  write
    | _, _, 0 => (.accepted 1, 0)
    | _, _, n + 1 => (.interrupted, n)
  flush _ _ := (.done, 2)
  patience _ n := n
  patience_write := by
    intro _ _ n interrupted
    cases n with
    | zero => cases interrupted
    | succ n => exact Nat.lt_succ_self n

theorem Writers.patient_sound : Writers.patient.Sound where
  write _ _ n _ := by
    cases n with
    | zero => exact .inr ⟨0, rfl⟩
    | succ n => exact .inl rfl
  flush _ _ := rfl

theorem output_of_redirected_run_patient :
    let steps : List (Step Instant Nat) :=
      [.increment, .redirect (some 1), .report, .meanwhile fun now => ⟨now.nanos + 7⟩,
        .redirect none, .increment, .redirect (some 1), .close]
    let start : _ × Minuted (Parted Clocks.standing Writers.patient) Unit Nat :=
      Meter.begin ⟨1, by decide⟩ (some 0) () (.fresh ⟨⟨0⟩, 0⟩)
    let deeds := Step.journal (steps.map Step.passing) start
    let last := Step.through (steps.map Step.passing) start
    let lastly := Step.through ((Step.staying steps).map Step.passing) start
    Fitting (· = .done) deeds ∧
      Fitting (· = .done) (Step.journal ((Step.staying steps).map Step.passing) start) ∧
      received none last.2.minutes = utf8 (written (deeds.filter (·.destination = none))) ∧
      received (some 0) lastly.2.minutes = utf8 (written deeds) := by
  intro steps start deeds last lastly
  have fitting : Fitting (· = .done) deeds := Writers.patient_sound.fitting steps start
  have fitting' : Fitting (· = .done)
      (Step.journal ((Step.staying steps).map Step.passing) start) :=
    Writers.patient_sound.fitting (Step.staying steps) start
  have output := (output_of_redirected_run Clocks.standing Writers.patient Writers.patient
    ⟨1, by decide⟩ (some 0) (some 0) () ⟨0⟩ 0 0 steps).2.2.2.2 fitting
  exact ⟨fitting, fitting', output.1 none, output.2 fitting'⟩

end Cadence
