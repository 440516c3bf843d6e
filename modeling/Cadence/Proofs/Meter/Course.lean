import Cadence.Proofs.Meter.Boundaries

namespace Cadence

inductive Occasion
  | periodic
  | requested
  | closing
deriving DecidableEq

structure Call (δ : Type) where
  occasion : Occasion
  now : Instant
  report : Report
  destination : Option δ
  delivery : Delivery
  returned : Bool

inductive Deed (δ : Type)
  | report (call : Call δ)
  | mark (destination : Option δ) (delivery : Delivery)

def calls {δ : Type} (deeds : List (Deed δ)) : List (Call δ) :=
  deeds.filterMap fun
    | .report call => some call
    | .mark _ _ => none

def marks {δ : Type} (deeds : List (Deed δ)) : List Delivery :=
  deeds.filterMap fun
    | .report _ => none
    | .mark _ delivery => some delivery

section

variable {δ : Type} (call : Call δ) (destination : Option δ) (delivery : Delivery)
  (deeds first second : List (Deed δ))

@[simp] theorem calls_nil : calls ([] : List (Deed δ)) = [] := rfl

@[simp] theorem calls_report : calls (.report call :: deeds) = call :: calls deeds := rfl

@[simp] theorem calls_mark : calls (.mark destination delivery :: deeds) = calls deeds := rfl

@[simp] theorem marks_nil : marks ([] : List (Deed δ)) = [] := rfl

@[simp] theorem marks_report : marks (.report call :: deeds) = marks deeds := rfl

@[simp] theorem marks_mark :
    marks (.mark destination delivery :: deeds) = delivery :: marks deeds := rfl

@[simp] theorem calls_append : calls (first ++ second) = calls first ++ calls second :=
  List.filterMap_append

@[simp] theorem marks_append : marks (first ++ second) = marks first ++ marks second :=
  List.filterMap_append

end

structure Course (σ κ δ α : Type) where
  deeds : List (Deed δ)
  outcome : Attempt α × Meter κ δ × σ

namespace Course

variable {σ κ δ α β γ : Type}

def quiet (outcome : Attempt α × Meter κ δ × σ) : Course σ κ δ α := ⟨[], outcome⟩

def andThen (c : Course σ κ δ α) (f : α → Meter κ δ → σ → Course σ κ δ β) : Course σ κ δ β :=
  match c.outcome with
  | (.ok a, m, s) => ⟨c.deeds ++ (f a m s).deeds, (f a m s).outcome⟩
  | (.error crash, m, s) => ⟨c.deeds, .error crash, m, s⟩

theorem andThen_ok {c : Course σ κ δ α} {a : α} {m : Meter κ δ} {s : σ}
    (ok : c.outcome = (.ok a, m, s)) (f : α → Meter κ δ → σ → Course σ κ δ β) :
    c.andThen f = ⟨c.deeds ++ (f a m s).deeds, (f a m s).outcome⟩ := by
  rw [andThen, ok]

theorem andThen_error {c : Course σ κ δ α} {crash : Crash} {m : Meter κ δ} {s : σ}
    (error : c.outcome = (.error crash, m, s)) (f : α → Meter κ δ → σ → Course σ κ δ β) :
    c.andThen f = ⟨c.deeds, .error crash, m, s⟩ := by
  rw [andThen, error]

@[simp] theorem quiet_ok_andThen (a : α) (m : Meter κ δ) (s : σ)
    (f : α → Meter κ δ → σ → Course σ κ δ β) : (quiet (.ok a, m, s)).andThen f = f a m s := by
  rw [andThen_ok rfl]
  rfl

theorem andThen_assoc (c : Course σ κ δ α) (f : α → Meter κ δ → σ → Course σ κ δ β)
    (g : β → Meter κ δ → σ → Course σ κ δ γ) :
    (c.andThen f).andThen g = c.andThen fun a m s => (f a m s).andThen g := by
  obtain ⟨deeds, result, m, s⟩ := c
  cases result with
  | error crash => rfl
  | ok a =>
    simp only [andThen]
    generalize f a m s = second
    obtain ⟨deeds', result, m, s⟩ := second
    cases result with
    | error crash => rfl
    | ok b => simp only [List.append_assoc]

end Course

namespace Meter

variable {σ κ δ : Type} [Surroundings σ κ δ]

def line (m : Meter κ δ) (s : σ) : Delivery × σ :=
  let (now, s) := Surroundings.read m.clock s
  let r := m.reportAt now
  emit m.destination ("\r" :: r.pieces) (Surroundings.log (.progress r.count r.rate) s)

def call (occasion : Occasion) (m : Meter κ δ) (s : σ) : Call δ :=
  let now := (Surroundings.read m.clock s).1
  { occasion, now, report := m.reportAt now, destination := m.destination
    delivery := (m.line s).1, returned := (m.report s).1.isOk }

def noting (event : Fault → Event) : Delivery × σ → σ
  | (.failed fault, s) => Surroundings.log (event fault) s
  | (_, s) => s

theorem noting_done (event : Fault → Event) {emission : Delivery × σ}
    (done : emission.1 = .done) : noting event emission = emission.2 := by
  obtain ⟨delivery, s⟩ := emission
  cases done
  rfl

def reporting (occasion : Occasion) (m : Meter κ δ) (s : σ) : Course σ κ δ Report :=
  ⟨[.report (m.call occasion s)], m.report s⟩

theorem reporting_andThen_ok {α : Type} (occasion : Occasion) {m m' : Meter κ δ} {s s' : σ}
    {r : Report} (ok : m.report s = (.ok r, m', s'))
    (f : Report → Meter κ δ → σ → Course σ κ δ α) :
    (m.reporting occasion s).andThen f =
      ⟨.report (m.call occasion s) :: (f r m' s').deeds, (f r m' s').outcome⟩ :=
  Course.andThen_ok (c := m.reporting occasion s) ok f

theorem reporting_andThen_error {α : Type} (occasion : Occasion) {m m' : Meter κ δ} {s s' : σ}
    {crash : Crash} (error : m.report s = (.error crash, m', s'))
    (f : Report → Meter κ δ → σ → Course σ κ δ α) :
    (m.reporting occasion s).andThen f =
      ⟨[.report (m.call occasion s)], .error crash, m', s'⟩ :=
  Course.andThen_error (c := m.reporting occasion s) error f

theorem report_cases (occasion : Occasion) (m : Meter κ δ) (s : σ) :
    ((m.call occasion s).returned = true ∧ m.reports ≠ Count.greatest ∧
      (∀ crash, (m.call occasion s).delivery ≠ .crashed crash) ∧
      ∃ s', m.report s = (.ok (m.call occasion s).report,
        { m with last := (m.call occasion s).now, reports := m.reports + 1 }, s')) ∨
    ((m.call occasion s).returned = false ∧
      ∃ crash s', m.report s = (.error crash, { m with last := (m.call occasion s).now }, s') ∧
        ((m.call occasion s).delivery = .crashed crash ∨ m.reports = Count.greatest)) := by
  simp only [call, report, line]
  generalize Surroundings.read m.clock s = reading
  obtain ⟨now, s'⟩ := reading
  simp only
  generalize emit m.destination ("\r" :: (m.reportAt now).pieces)
    (Surroundings.log (.progress (m.reportAt now).count (m.reportAt now).rate) s') = emission
  obtain ⟨delivery, s''⟩ := emission
  cases delivery with
  | crashed crash =>
    right
    exact ⟨rfl, crash, s'', rfl, .inl rfl⟩
  | done =>
    by_cases full : m.reports = Count.greatest
    · right
      simp [countReport, full, Except.isOk, Except.toBool]
    · left
      simp [countReport, full, Except.isOk, Except.toBool]
  | failed fault =>
    by_cases full : m.reports = Count.greatest
    · right
      simp [countReport, full, Except.isOk, Except.toBool]
    · left
      simp [countReport, full, Except.isOk, Except.toBool]

theorem report_surroundings (m : Meter κ δ) (s : σ) :
    (m.report s).2.2 = noting .reportFailed (m.line s) := by
  simp only [report, line]
  generalize Surroundings.read m.clock s = reading
  obtain ⟨now, s'⟩ := reading
  simp only
  generalize emit m.destination ("\r" :: (m.reportAt now).pieces)
    (Surroundings.log (.progress (m.reportAt now).count (m.reportAt now).rate) s') = emission
  obtain ⟨delivery, s''⟩ := emission
  cases delivery with
  | crashed crash => rfl
  | done =>
    simp only [countReport]
    split <;> rfl
  | failed fault =>
    simp only [countReport]
    split <;> rfl

theorem report_delivered (occasion : Occasion) (m : Meter κ δ) (s : σ)
    (room : m.reports ≠ Count.greatest) (delivered : ∀ crash, (m.line s).1 ≠ .crashed crash) :
    (m.call occasion s).returned = true ∧
      m.report s = (.ok (m.call occasion s).report,
        { m with last := (m.call occasion s).now, reports := m.reports + 1 },
        noting .reportFailed (m.line s)) := by
  have surroundings := m.report_surroundings s
  rcases m.report_cases occasion s with ⟨came, _, _, s', ok⟩ | ⟨_, crash, _, _, lost | full⟩
  · rw [ok] at surroundings ⊢
    rw [← surroundings]
    exact ⟨came, rfl⟩
  · exact absurd lost (delivered crash)
  · exact absurd full room

theorem report_reports (occasion : Occasion) (m : Meter κ δ) (s : σ) :
    (m.report s).2.1.reports.toNat =
      m.reports.toNat + if (m.call occasion s).returned then 1 else 0 := by
  rcases m.report_cases occasion s with ⟨came, room, _, s', ok⟩ | ⟨left, crash, s', error, _⟩
  · rw [ok, if_pos came]
    exact Count.toNat_succ m.reports room
  · rw [error, left]
    rfl

theorem report_frame (m : Meter κ δ) (s : σ) :
    ∃ last reports, (m.report s).2.1 = { m with last, reports } := by
  rcases m.report_cases .periodic s with ⟨_, _, _, s', ok⟩ | ⟨_, crash, s', error, _⟩
  · rw [ok]
    exact ⟨_, _, rfl⟩
  · rw [error]
    exact ⟨_, _, rfl⟩

def reportingAt : List UInt64 → Meter κ δ → σ → Course σ κ δ Unit
  | [], m, s => .quiet (.ok (), m, s)
  | c :: cs, m, s =>
    (reporting .periodic { m with count := c } s).andThen fun _ m s => reportingAt cs m s

def advancing (target : UInt64) (m : Meter κ δ) (s : σ) : Course σ κ δ Unit :=
  (m.reportingAt (boundaries m.interval m.count target) s).andThen fun _ m s =>
    .quiet (.ok (), { m with count := target }, s)

def incrementing (m : Meter κ δ) (s : σ) : Course σ κ δ Unit :=
  if m.count = Count.greatest then .quiet (.error .countOverflow, m, s)
  else m.advancing (m.count + 1) s

def incrementingBy (n : UInt64) (m : Meter κ δ) (s : σ) : Course σ κ δ Unit :=
  m.advancing (Count.plusUpToGreatest m.count n) s

def marking (r : Report) (m : Meter κ δ) (s : σ) : Course σ κ δ (Option Report) :=
  let (delivery, s) := emit m.destination [doneMarker] s
  ⟨[.mark m.destination delivery],
    match delivery with
    | .done => m.finish r s
    | .failed fault => m.finish r (Surroundings.log (.markerFailed fault) s)
    | .crashed crash => (.error crash, m, s)⟩

theorem marking_cases (r : Report) (m : Meter κ δ) (s : σ) :
    (∃ crash, (emit m.destination [doneMarker] s).1 = .crashed crash ∧
      (m.marking r s).outcome = (.error crash, m, (emit m.destination [doneMarker] s).2)) ∨
    ((∀ crash, (emit m.destination [doneMarker] s).1 ≠ .crashed crash) ∧
      (m.marking r s).outcome = (.ok (some r), { m with finished := true },
        Surroundings.log (.finished r.count r.elapsed)
          (noting .markerFailed (emit m.destination [doneMarker] s)))) := by
  simp only [marking]
  generalize emit m.destination [doneMarker] s = emission
  obtain ⟨delivery, s'⟩ := emission
  cases delivery with
  | crashed crash => exact .inl ⟨crash, rfl, rfl⟩
  | done => exact .inr ⟨by simp, rfl⟩
  | failed fault => exact .inr ⟨by simp, rfl⟩

def closing (m : Meter κ δ) (s : σ) : Course σ κ δ (Option Report) :=
  if m.finished then .quiet (.ok none, m, s)
  else (m.reporting .closing s).andThen fun r m s => m.marking r s

theorem closing_finished {m : Meter κ δ} (shut : m.finished = true) (s : σ) :
    m.closing s = .quiet (.ok none, m, s) :=
  if_pos shut

theorem closing_open {m : Meter κ δ} (going : ¬ m.finished = true) (s : σ) :
    m.closing s = (m.reporting .closing s).andThen fun r m s => m.marking r s :=
  if_neg going

theorem closing_outcome (m : Meter κ δ) (s : σ) : (m.closing s).outcome = m.close s := by
  rw [close]
  by_cases shut : m.finished = true
  · rw [closing_finished shut, if_pos shut]
    rfl
  · rw [closing_open shut, if_neg shut]
    rcases report_cases .closing m s with ⟨_, _, _, s', ok⟩ | ⟨_, crash, s', error, _⟩
    · rw [ok, reporting_andThen_ok _ ok]
      simp only [marking]
      generalize emit m.destination [doneMarker] s' = emission
      obtain ⟨delivery, s''⟩ := emission
      cases delivery <;> rfl
    · rw [error, reporting_andThen_error _ error]

/-- How an open meter closes if nothing crashes: by one report and then, whether its line was
written or given up, by one marker. -/
def terminal (m : Meter κ δ) (s : σ) : Course σ κ δ (Option Report) :=
  let last := m.call .closing s
  let marker := emit m.destination [doneMarker] (noting .reportFailed (m.line s))
  { deeds := [.report last, .mark m.destination marker.1]
    outcome := (.ok (some last.report),
      { m with last := last.now, reports := m.reports + 1, finished := true },
      Surroundings.log (.finished last.report.count last.report.elapsed)
        (noting .markerFailed marker)) }

theorem closing_terminal (m : Meter κ δ) (s : σ) (going : ¬ m.finished = true)
    (room : m.reports ≠ Count.greatest) (delivered : ∀ crash, (m.line s).1 ≠ .crashed crash)
    (survives : ∀ crash,
      (emit m.destination [doneMarker] (noting .reportFailed (m.line s))).1 ≠ .crashed crash) :
    m.closing s = m.terminal s := by
  obtain ⟨_, ok⟩ := m.report_delivered .closing s room delivered
  rw [closing_open going, reporting_andThen_ok _ ok]
  rcases marking_cases (m.call .closing s).report
      { m with last := (m.call .closing s).now, reports := m.reports + 1 }
      (noting .reportFailed (m.line s)) with ⟨crash, lost, _⟩ | ⟨_, ended⟩
  · exact absurd lost (survives crash)
  · rw [ended]
    rfl

/-- A marker that crashes leaves the last report counted, but the meter unfinished. -/
theorem closing_unmarked (m : Meter κ δ) (s : σ) {crash : Crash} (going : ¬ m.finished = true)
    (room : m.reports ≠ Count.greatest) (delivered : ∀ crash, (m.line s).1 ≠ .crashed crash)
    (lost : (emit m.destination [doneMarker] (noting .reportFailed (m.line s))).1 =
      .crashed crash) :
    (m.call .closing s).returned = true ∧
      (m.closing s).deeds = [.report (m.call .closing s), .mark m.destination (.crashed crash)] ∧
      ∃ s', (m.closing s).outcome = (.error crash,
        { m with last := (m.call .closing s).now, reports := m.reports + 1 }, s') := by
  obtain ⟨came, ok⟩ := m.report_delivered .closing s room delivered
  rw [closing_open going, reporting_andThen_ok _ ok, ← lost]
  refine ⟨came, rfl, ?_⟩
  rcases marking_cases (m.call .closing s).report
      { m with last := (m.call .closing s).now, reports := m.reports + 1 }
      (noting .reportFailed (m.line s)) with ⟨other, same, ended⟩ | ⟨survives, _⟩
  · rw [ended]
    cases lost.symm.trans same
    exact ⟨_, rfl⟩
  · exact absurd lost (survives crash)

end Meter

end Cadence
