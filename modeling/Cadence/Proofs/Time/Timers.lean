import Cadence.Keyed
import Cadence.Timer
import Cadence.Session.Rig

namespace Cadence.Timer

structure Rack (σ κ : Type) where
  timers : Keyed (Timer κ)
  around : σ

inductive Answer
  | nothing
  | elapsed (d : Option Span)
  | seconds (x : Binary64)
  | started (yes : Bool)

namespace Rack

variable {σ κ : Type}

def timer? (rack : Rack σ κ) (name : String) : Option (Timer κ) := Keyed.get? name rack.timers

def put (rack : Rack σ κ) (name : String) (t : Timer κ) : Rack σ κ :=
  { rack with timers := Keyed.insert name t rack.timers }

def withTimer (rack : Rack σ κ) (name : String) (f : Timer κ → Answer × Rack σ κ) :
    Answer × Rack σ κ :=
  match rack.timer? name with
  | some t => f t
  | none => (.nothing, rack)

variable {rack : Rack σ κ} {name : String} {t : Timer κ} {f : Timer κ → Answer × Rack σ κ}

theorem withTimer_some (here : rack.timer? name = some t) : rack.withTimer name f = f t := by
  rw [withTimer, here]

theorem withTimer_none (missing : rack.timer? name = none) :
    rack.withTimer name f = (.nothing, rack) := by
  rw [withTimer, missing]

theorem timer?_withTimer (target : String)
    (kept : ∀ t, (f t).2.timer? name = rack.timer? name) :
    (rack.withTimer target f).2.timer? name = rack.timer? name := by
  rw [withTimer]
  split
  · exact kept _
  · rfl

theorem timer?_put (name target : String) :
    (rack.put target t).timer? name = if name = target then some t else rack.timer? name :=
  Keyed.get?_insert name target t rack.timers

theorem timer?_put_same (target : String) : (rack.put target t).timer? target = some t := by
  rw [timer?_put, if_pos rfl]

end Rack

inductive Act (σ κ : Type)
  | make (name : String) (clock : κ)
  | copy (original name : String)
  | restart (name : String)
  | elapsed (name : String)
  | seconds (name : String)
  | isStarted (name : String)
  | meanwhile (change : σ → σ)

inductive Note (κ : Type)
  | made (name : String) (clock : κ)
  | copied (original name : String)
  | started (name : String) (now : Instant)
deriving DecidableEq

/-- The clock of a timer and the starts that count for it, the latest first. -/
structure Line (κ : Type) where
  clock : κ
  starts : List Instant

namespace Line

variable {κ : Type}

def timer (line : Line κ) : Timer κ := ⟨line.clock, line.starts.head?⟩

def start (line : Line κ) (now : Instant) : Line κ := { line with starts := now :: line.starts }

end Line

def line? {κ : Type} : List (Note κ) → String → Option (Line κ)
  | [], _ => none
  | .made other clock :: past, name => if name = other then some ⟨clock, []⟩ else line? past name
  | .copied original other :: past, name =>
    if name = other then line? past original else line? past name
  | .started other now :: past, name =>
    if name = other then (line? past name).map fun line => line.start now else line? past name

namespace Act

variable {σ κ δ : Type} [Surroundings σ κ δ]

def run (act : Act σ κ) (rack : Rack σ κ) : Answer × Rack σ κ :=
  match act with
  | .make name clock => (.nothing, rack.put name (idle clock))
  | .copy original name => rack.withTimer original fun t => (.nothing, rack.put name t)
  | .restart name => rack.withTimer name fun t =>
    let (t, around) := t.restart rack.around
    (.nothing, { rack with around }.put name t)
  | .elapsed name => rack.withTimer name fun t =>
    let (d, around) := t.elapsed rack.around
    (.elapsed d, { rack with around })
  | .seconds name => rack.withTimer name fun t =>
    let (x, around) := t.seconds rack.around
    (.seconds x, { rack with around })
  | .isStarted name => rack.withTimer name fun t => (.started t.isStarted, rack)
  | .meanwhile change => (.nothing, { rack with around := change rack.around })

def target? : Act σ κ → Option String
  | .make name _ | .copy _ name | .restart name => some name
  | _ => none

def through : List (Act σ κ) → Rack σ κ → Rack σ κ
  | [], rack => rack
  | act :: acts, rack => through acts (act.run rack).2

def noted (past : List (Note κ)) (s : σ) : Act σ κ → List (Note κ)
  | .make name clock => .made name clock :: past
  | .copy original name =>
    match line? past original with
    | some _ => .copied original name :: past
    | none => past
  | .restart name =>
    match line? past name with
    | some line => .started name (Surroundings.read line.clock s).1 :: past
    | none => past
  | _ => past

def history : List (Act σ κ) → Rack σ κ → List (Note κ) → List (Note κ)
  | [], _, past => past
  | act :: acts, rack, past => history acts (act.run rack).2 (act.noted past rack.around)

/-- An act leaves every timer alone but the one that it puts under a name. -/
theorem timer?_run (act : Act σ κ) (rack : Rack σ κ) {name : String}
    (other : act.target? ≠ some name) : (act.run rack).2.timer? name = rack.timer? name := by
  have elsewhere {target : String} (aims : act.target? = some target) (rack : Rack σ κ)
      (t : Timer κ) : (rack.put target t).timer? name = rack.timer? name := by
    rw [Rack.timer?_put, if_neg]
    rintro rfl
    exact other aims
  cases act with
  | make target clock => exact elsewhere rfl rack _
  | copy original target => exact Rack.timer?_withTimer original fun t => elsewhere rfl rack t
  | restart target => exact Rack.timer?_withTimer target fun _ => elsewhere rfl _ _
  | elapsed target => exact Rack.timer?_withTimer target fun _ => rfl
  | seconds target => exact Rack.timer?_withTimer target fun _ => rfl
  | isStarted target => exact Rack.timer?_withTimer target fun _ => rfl
  | meanwhile change => rfl

theorem timer?_through (acts : List (Act σ κ)) (rack : Rack σ κ) {name : String}
    (others : ∀ act ∈ acts, act.target? ≠ some name) :
    (through acts rack).timer? name = rack.timer? name := by
  induction acts generalizing rack with
  | nil => rfl
  | cons act acts rest =>
    obtain ⟨other, others⟩ := List.forall_mem_cons.mp others
    exact (rest _ others).trans (act.timer?_run rack other)

end Act

namespace Rack

variable {σ κ δ : Type}

def Recalls (rack : Rack σ κ) (past : List (Note κ)) : Prop :=
  ∀ name, rack.timer? name = (line? past name).map Line.timer

variable [Surroundings σ κ δ] {rack : Rack σ κ} {past : List (Note κ)}

theorem Recalls.act (recalls : rack.Recalls past) (act : Act σ κ) :
    (act.run rack).2.Recalls (act.noted past rack.around) := by
  have still (none : act.target? = none) : (act.run rack).2.Recalls past := fun name =>
    (act.timer?_run rack (by simp [none])).trans (recalls name)
  have put {target : String} {later : List (Note κ)} (aims : act.target? = some target)
      (others : ∀ name ≠ target, line? later name = line? past name)
      (there : (act.run rack).2.timer? target = (line? later target).map Line.timer) :
      (act.run rack).2.Recalls later := by
    intro name
    by_cases here : name = target
    · rw [here, there]
    · have apart : act.target? ≠ some name := by
        rw [aims]
        exact fun same => here (Option.some.inj same).symm
      rw [act.timer?_run rack apart, others name here, recalls name]
  cases act with
  | make target clock =>
    refine put rfl (fun name other => if_neg other) ?_
    rw [Act.noted, line?, if_pos rfl]
    exact timer?_put_same target
  | copy original target =>
    have there := recalls original
    rw [Act.noted]
    cases line : line? past original with
    | none =>
      rw [line] at there
      rw [Act.run, withTimer_none there]
      exact recalls
    | some l =>
      rw [line] at there
      refine put rfl (fun name other => if_neg other) ?_
      rw [Act.run, withTimer_some there, line?, if_pos rfl, line]
      exact timer?_put_same target
  | restart target =>
    have there := recalls target
    rw [Act.noted]
    cases line : line? past target with
    | none =>
      rw [line] at there
      rw [Act.run, withTimer_none there]
      exact recalls
    | some l =>
      rw [line] at there
      refine put rfl (fun name other => if_neg other) ?_
      rw [Act.run, withTimer_some there, line?, if_pos rfl, line]
      exact timer?_put_same target
  | elapsed target => exact still rfl
  | seconds target => exact still rfl
  | isStarted target => exact still rfl
  | meanwhile change => exact still rfl

theorem Recalls.through (recalls : rack.Recalls past) (acts : List (Act σ κ)) :
    (Act.through acts rack).Recalls (Act.history acts rack past) := by
  induction acts generalizing rack past with
  | nil => exact recalls
  | cons act acts rest => exact rest (recalls.act act)

structure Tells (rack : Rack σ κ) (name : String) (line : Line κ) : Prop where
  isStarted : (Act.isStarted name).run rack = (.started (!line.starts.isEmpty), rack)
  never : line.starts = [] →
    (Act.elapsed name).run rack = (.elapsed none, rack) ∧
    (Act.seconds name).run rack = (.seconds .zero,
      { rack with around := Surroundings.log .readBeforeStart rack.around }) ∧
    Event.readBeforeStart.level = .debug
  since : ∀ start ∈ line.starts.head?,
    let reading := Surroundings.read line.clock rack.around
    let read := { rack with around := reading.2 }
    ∃ d : Span, (d.nanos : Int) = max 0 ((reading.1.nanos : Int) - start.nanos) ∧
      (Act.elapsed name).run rack = (.elapsed (some d), read) ∧
      (Act.seconds name).run rack = (.seconds (.ofNat (d.nanos / 1000) / .ofNat 1000000), read)

theorem tells {name : String} {line : Line κ} (here : rack.timer? name = some line.timer) :
    rack.Tells name line where
  isStarted := by
    have started : line.timer.isStarted = !line.starts.isEmpty := by
      rw [Timer.isStarted, Line.timer]
      cases line.starts <;> rfl
    rw [Act.run, withTimer_some here, started]
  never := by
    intro none
    have idle : line.timer.start = Option.none := congrArg List.head? none
    have elapsed : line.timer.elapsed rack.around = (Option.none, rack.around) := by
      rw [Timer.elapsed, idle]
    refine ⟨?_, ?_, rfl⟩
    · rw [Act.run, withTimer_some here, elapsed]
    · rw [Act.run, withTimer_some here, Timer.seconds, elapsed]
  since := by
    intro start latest reading read
    have started : line.timer.start = some start := latest
    have elapsed : line.timer.elapsed rack.around =
        (some (reading.1.since start), reading.2) := by
      rw [Timer.elapsed, started]
      rfl
    refine ⟨reading.1.since start, ?_, ?_, ?_⟩
    · exact reading.1.nanos_since start
    · rw [Act.run, withTimer_some here, elapsed]
    · rw [Act.run, withTimer_some here, Timer.seconds, elapsed]
      rfl

end Rack

variable {σ κ δ : Type} [Surroundings σ κ δ]

/-- Whatever was done with timers, each of them is as its line says. It answers from its latest
start and one reading of its clock, or without a reading if its line has no start. Any number of
answers leave it as it is, and so does what is done with other timers: a copy and its original go
on apart. -/
theorem timers_of_run (acts : List (Act σ κ)) (s : σ) :
    let rack := Act.through acts ⟨[], s⟩
    let past := Act.history acts ⟨[], s⟩ []
    (∀ name, rack.timer? name = (line? past name).map Line.timer) ∧
    (∀ name line, line? past name = some line → rack.Tells name line) ∧
    (∀ name more, (∀ act ∈ more, act.target? ≠ some name) →
      (Act.through more rack).timer? name = rack.timer? name) ∧
    (∀ original name line more, line? past original = some line → name ≠ original →
      let copied := ((Act.copy original name).run rack).2
      ((∀ act ∈ more, act.target? ≠ some original) →
        (Act.through more copied).timer? original = some line.timer) ∧
      ((∀ act ∈ more, act.target? ≠ some name) →
        (Act.through more copied).timer? name = some line.timer)) := by
  intro rack past
  have recalls : rack.Recalls past := Rack.Recalls.through (fun _ => rfl) acts
  have there {name : String} {line : Line κ} (known : line? past name = some line) :
      rack.timer? name = some line.timer := by
    rw [recalls name, known, Option.map_some]
  refine ⟨recalls, fun name line known => Rack.tells (there known), ?_, ?_⟩
  · intro name more others
    exact Act.timer?_through more rack others
  · intro original name line more known apart copied
    constructor
    · intro others
      have aims : (Act.copy original name : Act σ κ).target? ≠ some original := fun same =>
        apart (Option.some.inj same)
      rw [Act.timer?_through more copied others, Act.timer?_run _ rack aims, there known]
    · intro others
      have copied_eq : copied = rack.put name line.timer := by
        change ((Act.copy original name).run rack).2 = _
        rw [Act.run, Rack.withTimer_some (there known)]
      rw [Act.timer?_through more copied others, copied_eq, Rack.timer?_put_same]

open Session (Rig ClockHandle) in
theorem timers_of_run_back :
    let clock : ClockHandle := .numbered 0
    let acts : List (Act Rig ClockHandle) := [.make "a" clock, .copy "a" "idle", .restart "a",
      .seconds "a", .copy "a" "b",
      .meanwhile fun rig => rig.setClock clock (.scripted ⟨4000⟩ ⟨1000⟩), .restart "b",
      .elapsed "b"]
    let around : Rig := { Rig.empty with clocks := #[.scripted ⟨9000⟩ ⟨1000⟩] }
    let rack := Act.through acts ⟨[], around⟩
    let past := Act.history acts ⟨[], around⟩ []
    line? past "a" = some ⟨clock, [⟨9000⟩]⟩ ∧
      line? past "b" = some ⟨clock, [⟨4000⟩, ⟨9000⟩]⟩ ∧
      line? past "idle" = some ⟨clock, []⟩ ∧
      ((Act.elapsed "a").run rack).1 = .elapsed (some ⟨0⟩) ∧
      ((Act.elapsed "b").run rack).1 = .elapsed (some ⟨2000⟩) ∧
      ((Act.seconds "idle").run rack).2.around.events = #[.readBeforeStart] := by
  intro clock acts around rack past
  have tells : ∀ name line, line? past name = some line → rack.Tells name line :=
    (timers_of_run acts around).2.1
  have whole : past = [.started "b" ⟨4000⟩, .copied "a" "b", .started "a" ⟨9000⟩,
      .copied "a" "idle", .made "a" clock] := by decide +kernel
  have now : (Surroundings.read clock rack.around).1 = ⟨6000⟩ := by decide +kernel
  have quiet : rack.around.events = #[] := by decide +kernel
  clear_value past rack
  subst whole
  obtain ⟨d, length, elapsed, _⟩ := (tells "a" ⟨clock, [⟨9000⟩]⟩ rfl).since ⟨9000⟩ rfl
  obtain ⟨d', length', elapsed', _⟩ := (tells "b" ⟨clock, [⟨4000⟩, ⟨9000⟩]⟩ rfl).since ⟨4000⟩ rfl
  obtain ⟨_, logged, _⟩ := (tells "idle" ⟨clock, []⟩ rfl).never rfl
  rw [now] at length length'
  have none : d = ⟨0⟩ := congrArg Span.mk (Int.ofNat.inj length)
  have some : d' = ⟨2000⟩ := congrArg Span.mk (Int.ofNat.inj length')
  refine ⟨rfl, rfl, rfl, ?_, ?_, ?_⟩
  · rw [elapsed, none]
  · rw [elapsed', some]
  · rw [logged]
    exact congrArg (Array.push · Event.readBeforeStart) quiet

end Cadence.Timer
