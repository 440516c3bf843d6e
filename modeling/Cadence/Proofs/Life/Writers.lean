import Cadence.Proofs.Emission.Parted
import Cadence.Proofs.Life.Closing
import Cadence.Proofs.Life.Minutes

namespace Cadence

open Meter (doneMarker)

variable {κ τ δ ω ω' : Type} {clocks : Clocks κ τ} {writers : Writers δ ω}
  {writers' : Writers δ ω'}

def Dealing.isQuiet : Dealing κ δ → Bool
  | .read _ _ => true
  | .log e => e.level ≠ .warn
  | .write _ _ _ | .flush _ _ => false

def Minuted.aside (s : Minuted (Parted clocks writers) κ δ) : τ × List (Dealing κ δ) :=
  (s.state.time, s.minutes.filter Dealing.isQuiet)

section

variable {s s' : Minuted (Parted clocks writers) κ δ}

theorem aside_loud (dealing : Dealing κ δ) (loud : dealing.isQuiet = false)
    (minutes : s'.minutes = s.minutes ++ [dealing]) (time : s'.state.time = s.state.time) :
    s'.aside = s.aside := by
  rw [Minuted.aside, Minuted.aside, minutes, time, List.filter_append,
    List.filter_cons_of_neg (ne_true_of_eq_false loud), List.filter_nil, List.append_nil]

theorem aside_emit (d : Option δ) (pieces : List String) : (emit d pieces s).2.aside = s.aside := by
  apply emit_view Minuted.aside
  · intro bytes s
    exact aside_loud (.write d bytes (Surroundings.write d bytes s.state).1) rfl rfl rfl
  · intro s
    exact aside_loud (.flush d (Surroundings.flush d s.state).1) rfl rfl rfl

theorem aside_noting {event : Fault → Event} (warns : ∀ fault, (event fault).level = .warn)
    (emission : Delivery × Minuted (Parted clocks writers) κ δ) :
    (Meter.noting event emission).aside = emission.2.aside := by
  obtain ⟨delivery, s⟩ := emission
  cases delivery with
  | done => rfl
  | failed fault =>
    have loud : (Dealing.log (event fault) : Dealing κ δ).isQuiet = false := by
      simp [Dealing.isQuiet, warns]
    exact aside_loud (.log (event fault)) loud rfl rfl
  | crashed crash => rfl

theorem aside_log (e : Event) :
    (Surroundings.log e s).aside = (s.aside.1, s.aside.2 ++ [.log e].filter Dealing.isQuiet) := by
  rw [Minuted.aside, Minuted.minutes_log, List.filter_append]
  rfl

theorem aside_read (clock : κ) :
    (Surroundings.read clock s).2.aside = ((clocks.read clock s.aside.1).2,
      s.aside.2 ++ [.read clock (clocks.read clock s.aside.1).1]) := by
  rw [Minuted.aside, Minuted.minutes_read, List.filter_append]
  rfl

theorem aside_line (m : Meter κ δ) :
    let reading := clocks.read m.clock s.aside.1
    let r := m.reportAt reading.1
    (m.line s).2.aside =
      (reading.2, s.aside.2 ++ [.read m.clock reading.1, .log (.progress r.count r.rate)]) := by
  intro reading r
  have log := aside_log (s := (Surroundings.read m.clock s).2) (.progress r.count r.rate)
  rw [aside_read, List.append_assoc] at log
  exact (aside_emit _ _).trans log

theorem time_report (m : Meter κ δ) (s : Minuted (Parted clocks writers) κ δ) :
    (m.report s).2.2.state.time = (clocks.read m.clock s.state.time).2 := by
  rw [m.report_surroundings]
  exact congrArg Prod.fst ((aside_noting (fun _ => rfl) _).trans (aside_line m))

theorem time_marking (r : Report) (m : Meter κ δ) (s : Minuted (Parted clocks writers) κ δ) :
    (m.marking r s).outcome.2.2.state.time = s.state.time := by
  have emitted := congrArg Prod.fst (aside_emit (s := s) m.destination [doneMarker])
  rcases m.marking_cases r s with ⟨crash, _, ended⟩ | ⟨_, ended⟩
  · rw [ended]
    exact emitted
  · rw [ended]
    exact (congrArg Prod.fst (aside_noting (fun _ => rfl) _)).trans emitted

theorem Writers.Calm.emit (calm : writers.Calm) (d : Option δ) (pieces : List String)
    (s : Minuted (Parted clocks writers) κ δ) (crash : Crash) :
    (emit d pieces s).1 ≠ .crashed crash := by
  have peaceful : Peaceful (σ := Minuted (Parted clocks writers) κ δ) (fun _ => True)
      fun _ => True := by
    constructor
    case write => exact fun bytes _ _ => ⟨calm.write _ bytes _, True.intro⟩
    case flush => exact fun _ _ => ⟨calm.flush _ _, True.intro⟩
    case read => exact fun _ _ => True.intro
    case log => exact fun _ _ => True.intro
  exact (peaceful.emit True.intro True.intro pieces).1 crash

theorem Writers.Calm.line (calm : writers.Calm) (m : Meter κ δ)
    (s : Minuted (Parted clocks writers) κ δ) (crash : Crash) : (m.line s).1 ≠ .crashed crash :=
  calm.emit _ _ _ crash

end

def SameAside (life : Meter κ δ × Minuted (Parted clocks writers) κ δ)
    (life' : Meter κ δ × Minuted (Parted clocks writers') κ δ) : Prop :=
  life'.1 = life.1 ∧ life'.2.aside = life.2.aside

theorem SameAside.twins (calm : writers.Calm) (calm' : writers'.Calm) :
    Twins (fun _ => True) fun (life : Meter κ δ × Minuted (Parted clocks writers) κ δ)
      (life' : Meter κ δ × Minuted (Parted clocks writers') κ δ) => SameAside life life' where
  same := by
    rintro _ s m s' ⟨rfl, _⟩
    exact ⟨rfl, rfl, rfl⟩
  count := by
    rintro _ s m s' ⟨rfl, aside⟩ c
    exact ⟨rfl, aside⟩
  report := by
    rintro _ s m s' ⟨rfl, aside⟩ occasion _ _
    have now : (Surroundings.read m.clock s').1 = (Surroundings.read m.clock s).1 :=
      congrArg (fun aside => (clocks.read m.clock aside.1).1) aside
    have lines : (m.line s').2.aside = (m.line s).2.aside := by
      rw [aside_line, aside_line, aside]
    change (m.report s').1 = (m.report s).1 ∧ SameAside (m.report s).2 (m.report s').2
    rw [Meter.report_survives (calm.line m s), Meter.report_survives (calm'.line m s'), now]
    refine ⟨rfl, rfl, ?_⟩
    rw [aside_noting fun _ => rfl, aside_noting fun _ => rfl]
    exact lines
  mark := by
    rintro _ s m s' ⟨rfl, aside⟩ r _ _
    have survives := calm.emit m.destination [doneMarker] s
    have survives' := calm'.emit m.destination [doneMarker] s'
    rcases m.marking_cases r s with ⟨crash, lost, _⟩ | ⟨_, ended⟩
    · exact absurd lost (survives crash)
    rcases m.marking_cases r s' with ⟨crash, lost, _⟩ | ⟨_, ended'⟩
    · exact absurd lost (survives' crash)
    rw [ended, ended']
    refine ⟨rfl, rfl, ?_⟩
    rw [aside_log, aside_log, aside_noting fun _ => rfl, aside_noting fun _ => rfl, aside_emit,
      aside_emit]
    exact congrArg (fun aside => (aside.1, aside.2 ++ _)) aside

theorem SameAside.elapsed {life : Meter κ δ × Minuted (Parted clocks writers) κ δ}
    {life' : Meter κ δ × Minuted (Parted clocks writers') κ δ} (same : SameAside life life') :
    (life'.1.elapsed life'.2).1 = (life.1.elapsed life.2).1 := by
  obtain ⟨m, s⟩ := life
  obtain ⟨_, s'⟩ := life'
  obtain ⟨rfl, aside⟩ := same
  exact congrArg (fun aside => (clocks.read _ aside.1).1.since _) aside

theorem SameAside.retire (calm : writers.Calm) (calm' : writers'.Calm)
    {life : Meter κ δ × Minuted (Parted clocks writers) κ δ}
    {life' : Meter κ δ × Minuted (Parted clocks writers') κ δ} (same : SameAside life life') :
    (life'.1.retire life'.2).1 = (life.1.retire life.2).1 ∧
      (life'.1.retire life'.2).2.aside = (life.1.retire life.2).2.aside := by
  obtain ⟨result, _, aside⟩ := (SameAside.twins calm calm').closing same
    (fun _ _ => True.intro) (fun _ _ => True.intro)
  rw [Meter.closing_outcome, Meter.closing_outcome] at result aside
  rw [Meter.retire_eq, Meter.retire_eq]
  exact ⟨congrArg (Except.map _) result, aside⟩

/-- Among writers that do not crash, a meter crashes only when a count overflows. -/
theorem Writers.Calm.overflow (calm : writers.Calm)
    (step : Step (Minuted (Parted clocks writers) κ δ) δ) (m : Meter κ δ)
    (s : Minuted (Parted clocks writers) κ δ) {crash : Crash}
    (crashed : (step.run m s).1 = .error crash) : crash = .countOverflow := by
  rcases step.own_or_other with own | ⟨destination, rfl⟩ | ⟨change, rfl⟩
  · rw [← step.course_outcome] at crashed
    rcases step.course_excused m s crash crashed with overflow | ⟨deed, member, lost⟩
    · exact overflow
    · have survive : Fitting (fun delivery => ∀ crash, delivery ≠ .crashed crash)
          (step.course m s).deeds :=
        (Fitting.law calm.emit).step step own m s
      exact absurd lost (survive deed member crash)
  · cases crashed
  · cases crashed

theorem Writers.Calm.retire_overflow (calm : writers.Calm) (m : Meter κ δ)
    (s : Minuted (Parted clocks writers) κ δ) {crash : Crash}
    (crashed : (m.retire s).1 = .error crash) : crash = .countOverflow := by
  rw [m.retire_eq] at crashed
  cases closed : (m.close s).1 with
  | ok r =>
    rw [closed] at crashed
    cases crashed
  | error other =>
    rw [closed] at crashed
    cases crashed
    exact calm.overflow .close m s (congrArg (Except.map Step.Answer.closing) closed)

def Step.passing : Step τ δ → Step (Minuted (Parted clocks writers) κ δ) δ :=
  .among Minuted.passing

/-- Writers may take few bytes, interrupt and fail in any way short of a crash: whatever is done
with the meter, they change none of its answers, none of its fields, no reading of a clock and no
event below a warning, and no failure of theirs reaches its owner. -/
theorem run_despite_writers (calm : writers.Calm) (calm' : writers'.Calm) (interval : Interval)
    (destination : Option δ) (clock : κ) (time : τ) (ink : ω) (ink' : ω')
    (steps : List (Step τ δ)) :
    let start : _ × Minuted (Parted clocks writers) κ δ :=
      Meter.begin interval destination clock (.fresh ⟨time, ink⟩)
    let start' : _ × Minuted (Parted clocks writers') κ δ :=
      Meter.begin interval destination clock (.fresh ⟨time, ink'⟩)
    let answers := Step.answers (steps.map Step.passing) start
    let last := Step.through (steps.map Step.passing) start
    let last' := Step.through (steps.map Step.passing) start'
    Step.answers (steps.map Step.passing) start' = answers ∧ SameAside last last' ∧
    (last'.1.elapsed last'.2).1 = (last.1.elapsed last.2).1 ∧
    (last'.1.retire last'.2).1 = (last.1.retire last.2).1 ∧
    (last'.1.retire last'.2).2.aside = (last.1.retire last.2).2.aside ∧
    (∀ answer ∈ answers, ∀ crash, answer.1 = .error crash → crash = .countOverflow) ∧
    ∀ crash, (last.1.retire last.2).1 = .error crash → crash = .countOverflow := by
  intro start start' answers last last'
  have initially : SameAside start start' := ⟨rfl, rfl⟩
  have run := (SameAside.twins calm calm').run Minuted.passing Minuted.passing ?_ ?_ ?_ steps
    initially (fun _ _ => True.intro) (fun _ _ => True.intro)
  · obtain ⟨same, ended⟩ := run
    obtain ⟨result, aside⟩ := ended.retire calm calm'
    refine ⟨same, ended, ended.elapsed, result, aside, ?_, fun _ => calm.retire_overflow _ _⟩
    intro answer member crash crashed
    obtain ⟨step, m, s, ran⟩ := Step.mem_answers member
    exact calm.overflow step m s (ran.symm.trans crashed)
  · exact fun same => same.1
  · rintro destination _ s m s' ⟨rfl, aside⟩
    exact ⟨rfl, aside⟩
  · rintro change _ s m s' ⟨rfl, aside⟩
    exact ⟨rfl, congrArg (fun aside => (change aside.1, aside.2)) aside⟩

def Writers.hesitant : Writers Unit Nat where
  write
    | _, _, 0 => (.accepted 1, 0)
    | _, _, n + 1 => (.interrupted, n)
  flush _ n := (.failed .timedOut, n + 2)
  patience _ n := n
  patience_write := by
    intro _ _ n interrupted
    cases n with
    | zero => cases interrupted
    | succ n => exact Nat.lt_succ_self n

def Writers.refusing : Writers Unit Unit where
  write _ _ _ := (.failed .brokenPipe, ())
  flush _ _ := (.done, ())
  patience _ _ := 0
  patience_write := by rintro _ _ _ ⟨⟩

theorem run_despite_writers_refusing :
    let steps : List (Step Instant Unit) :=
      [.incrementBy 5, .report, .redirect none, .meanwhile fun now => ⟨now.nanos + 7⟩, .increment,
        .close, .close]
    let start : _ × Minuted (Parted Clocks.standing Writers.hesitant) Unit Unit :=
      Meter.begin ⟨2, by decide⟩ (some ()) () (.fresh ⟨⟨0⟩, 3⟩)
    let start' : _ × Minuted (Parted Clocks.standing Writers.refusing) Unit Unit :=
      Meter.begin ⟨2, by decide⟩ (some ()) () (.fresh ⟨⟨0⟩, ()⟩)
    Writers.hesitant.Calm ∧ Writers.refusing.Calm ∧
      Step.answers (steps.map Step.passing) start' =
        Step.answers (steps.map Step.passing) start := by
  intro steps start start'
  have calm : Writers.hesitant.Calm := by
    constructor
    · intro _ _ n
      cases n <;> rintro crash ⟨⟩
    · rintro _ n crash ⟨⟩
  have calm' : Writers.refusing.Calm := by
    constructor
    · rintro _ _ _ crash ⟨⟩
    · rintro _ _ crash ⟨⟩
  exact ⟨calm, calm', (run_despite_writers calm calm' _ _ _ _ _ _ steps).1⟩

end Cadence
