import Cadence.Proofs.Life.Crashes

namespace Cadence

variable {σ σ' τ κ δ : Type}

def Fitting (fits : Delivery → Prop) (deeds : List (Deed δ)) : Prop :=
  ∀ deed ∈ deeds, fits deed.delivery

theorem Fitting.andThen {α β : Type} {fits : Delivery → Prop} {c : Course σ κ δ α}
    {f : α → Meter κ δ → σ → Course σ κ δ β} (fitting : Fitting fits (c.andThen f).deeds) :
    Fitting fits c.deeds := by
  obtain ⟨deeds, result, m, s⟩ := c
  cases result with
  | error crash => exact fitting
  | ok a => exact fun deed member => fitting deed (List.mem_append_left _ member)

def Agree {α : Type} (fits : Delivery → Prop) (alike : Meter κ δ × σ → Meter κ δ × σ' → Prop)
    (c : Course σ κ δ α) (c' : Course σ' κ δ α) : Prop :=
  Fitting fits c.deeds → Fitting fits c'.deeds →
    c'.outcome.1 = c.outcome.1 ∧ alike c.outcome.2 c'.outcome.2

section

variable {α β : Type} {fits : Delivery → Prop} {alike : Meter κ δ × σ → Meter κ δ × σ' → Prop}
  {c : Course σ κ δ α} {c' : Course σ' κ δ α}

theorem Agree.andThen {f : α → Meter κ δ → σ → Course σ κ δ β}
    {f' : α → Meter κ δ → σ' → Course σ' κ δ β} (first : Agree fits alike c c')
    (second : ∀ a {m s m' s'}, alike (m, s) (m', s') → Agree fits alike (f a m s) (f' a m' s')) :
    Agree fits alike (c.andThen f) (c'.andThen f') := by
  intro fitting fitting'
  obtain ⟨result, after⟩ := first fitting.andThen fitting'.andThen
  obtain ⟨deeds, outcome, m, s⟩ := c
  obtain ⟨deeds', outcome', m', s'⟩ := c'
  cases result
  cases outcome with
  | error crash => exact ⟨rfl, after⟩
  | ok a =>
    apply second a after
    · exact fun deed member => fitting deed (List.mem_append_right _ member)
    · exact fun deed member => fitting' deed (List.mem_append_right _ member)

theorem Agree.answering (agree : Agree fits alike c c') (f : α → Step.Answer δ) :
    Agree fits alike (Step.courseAnswering f c) (Step.courseAnswering f c') := by
  intro fitting fitting'
  obtain ⟨result, after⟩ := agree fitting fitting'
  exact ⟨congrArg (Except.map f) result, after⟩

end

variable [Surroundings σ κ δ] [Surroundings σ' κ δ]

/-- What holds of every emission holds of every delivery. -/
theorem Fitting.law {fits : Delivery → Prop} (emits : ∀ d pieces (s : σ), fits (emit d pieces s).1) :
    Law fun (_ : Meter κ δ × σ) deeds _ => Fitting fits deeds where
  stay _ := List.forall_mem_nil _
  trans first second := List.forall_mem_append.mpr ⟨first, second⟩
  count _ _ _ := List.forall_mem_nil _
  report _ _ _ := List.forall_mem_singleton.mpr (emits _ _ _)
  mark _ _ _ _ := List.forall_mem_singleton.mpr (emits _ _ _)

structure Twins (fits : Delivery → Prop) (alike : Meter κ δ × σ → Meter κ δ × σ' → Prop) :
    Prop where
  same : ∀ {m s m' s'}, alike (m, s) (m', s') →
    m'.count = m.count ∧ m'.interval = m.interval ∧ m'.finished = m.finished
  count : ∀ {m s m' s'}, alike (m, s) (m', s') →
    ∀ c, alike ({ m with count := c }, s) ({ m' with count := c }, s')
  report : ∀ {m s m' s'}, alike (m, s) (m', s') →
    ∀ occasion, Agree fits alike (m.reporting occasion s) (m'.reporting occasion s')
  mark : ∀ {m s m' s'}, alike (m, s) (m', s') →
    ∀ r, Agree fits alike (m.marking r s) (m'.marking r s')

def Step.answers : List (Step σ δ) → Meter κ δ × σ → List (Attempt (Answer δ) × Meter κ δ)
  | [], _ => []
  | step :: steps, life =>
    let after := step.run life.1 life.2
    (after.1, after.2.1) :: answers steps after.2

theorem Step.mem_answers {steps : List (Step σ δ)} {life : Meter κ δ × σ}
    {answer : Attempt (Answer δ) × Meter κ δ} (member : answer ∈ answers steps life) :
    ∃ (step : Step σ δ) (m : Meter κ δ) (s : σ), answer.1 = (step.run m s).1 := by
  induction steps generalizing life with
  | nil => cases member
  | cons step steps rest =>
    rcases List.mem_cons.mp member with rfl | later
    · exact ⟨step, life.1, life.2, rfl⟩
    · exact rest later

namespace Twins

variable {fits : Delivery → Prop} {alike : Meter κ δ × σ → Meter κ δ × σ' → Prop}
  {m m' : Meter κ δ} {s : σ} {s' : σ'} {lift : (τ → τ) → σ → σ} {lift' : (τ → τ) → σ' → σ'}

theorem reportingAt (twins : Twins fits alike) (cs : List UInt64) (life : alike (m, s) (m', s')) :
    Agree fits alike (m.reportingAt cs s) (m'.reportingAt cs s') := by
  induction cs generalizing m s m' s' with
  | nil => exact fun _ _ => ⟨rfl, life⟩
  | cons c cs rest =>
    apply Agree.andThen
    · exact twins.report (twins.count life c) .periodic
    · intro _ _ _ _ _ after
      exact rest after

theorem advancing (twins : Twins fits alike) (target : UInt64) (life : alike (m, s) (m', s')) :
    Agree fits alike (m.advancing target s) (m'.advancing target s') := by
  obtain ⟨count, interval, _⟩ := twins.same life
  rw [Meter.advancing, Meter.advancing, count, interval]
  apply Agree.andThen
  · exact twins.reportingAt _ life
  · intro _ _ _ _ _ after _ _
    exact ⟨rfl, twins.count after target⟩

theorem incrementing (twins : Twins fits alike) (life : alike (m, s) (m', s')) :
    Agree fits alike (m.incrementing s) (m'.incrementing s') := by
  obtain ⟨count, _, _⟩ := twins.same life
  rw [Meter.incrementing, Meter.incrementing, count]
  split
  · exact fun _ _ => ⟨rfl, life⟩
  · exact twins.advancing _ life

theorem incrementingBy (twins : Twins fits alike) (n : UInt64) (life : alike (m, s) (m', s')) :
    Agree fits alike (m.incrementingBy n s) (m'.incrementingBy n s') := by
  obtain ⟨count, _, _⟩ := twins.same life
  rw [Meter.incrementingBy, Meter.incrementingBy, count]
  exact twins.advancing _ life

theorem closing (twins : Twins fits alike) (life : alike (m, s) (m', s')) :
    Agree fits alike (m.closing s) (m'.closing s') := by
  obtain ⟨_, _, finished⟩ := twins.same life
  rw [Meter.closing, Meter.closing, finished]
  split
  · exact fun _ _ => ⟨rfl, life⟩
  · apply Agree.andThen
    · exact twins.report life .closing
    · intro r _ _ _ _ after
      exact twins.mark after r

theorem step (twins : Twins fits alike) (step : Step τ δ) (own : step.IsOwn)
    (life : alike (m, s) (m', s')) :
    Agree fits alike ((step.among lift).course m s) ((step.among lift').course m' s') := by
  cases step with
  | increment => exact (twins.incrementing life).answering _
  | incrementBy n => exact (twins.incrementingBy n life).answering _
  | report => exact (twins.report life .requested).answering _
  | close => exact (twins.closing life).answering _
  | redirect destination => exact own.elim
  | meanwhile change => exact own.elim

theorem run (twins : Twins fits alike) (lift : (τ → τ) → σ → σ) (lift' : (τ → τ) → σ' → σ')
    (equal : ∀ {m s m' s'}, alike (m, s) (m', s') → m' = m)
    (redirect : ∀ destination {m s m' s'}, alike (m, s) (m', s') →
      alike ({ m with destination }, s) ({ m' with destination }, s'))
    (meanwhile : ∀ change {m s m' s'}, alike (m, s) (m', s') →
      alike (m, lift change s) (m', lift' change s'))
    (steps : List (Step τ δ)) {life : Meter κ δ × σ} {life' : Meter κ δ × σ'}
    (start : alike life life')
    (fitting : Fitting fits (Step.journal (steps.map (.among lift)) life))
    (fitting' : Fitting fits (Step.journal (steps.map (.among lift')) life')) :
    Step.answers (steps.map (.among lift')) life' = Step.answers (steps.map (.among lift)) life ∧
      alike (Step.through (steps.map (.among lift)) life)
        (Step.through (steps.map (.among lift')) life') := by
  induction steps generalizing life life' with
  | nil => exact ⟨rfl, start⟩
  | cons step steps rest =>
    obtain ⟨m, s⟩ := life
    obtain ⟨m', s'⟩ := life'
    obtain ⟨first, others⟩ := List.forall_mem_append.mp fitting
    obtain ⟨first', others'⟩ := List.forall_mem_append.mp fitting'
    -- only a redirection answers with what the meters hold, so there they have to be equal
    have here : ((step.among lift').run m' s').1 = ((step.among lift).run m s).1 ∧
        alike ((step.among lift).run m s).2 ((step.among lift').run m' s').2 := by
      rcases step.own_or_other with own | ⟨destination, rfl⟩ | ⟨change, rfl⟩
      · rw [← Step.course_outcome, ← Step.course_outcome]
        exact twins.step step own start first first'
      · refine ⟨?_, redirect destination start⟩
        rw [equal start]
        rfl
      · exact ⟨rfl, meanwhile change start⟩
    obtain ⟨answers, after⟩ := rest here.2 others others'
    refine ⟨?_, after⟩
    simp only [List.map_cons, Step.answers]
    rw [here.1, equal here.2, answers]

end Twins

end Cadence
