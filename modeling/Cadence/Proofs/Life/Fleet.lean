import Cadence.Proofs.Emission.Outlet
import Cadence.Proofs.Emission.Parted
import Cadence.Proofs.Life.Closing
import Cadence.Proofs.Life.Twins
import Mathlib.Logic.Function.Basic

namespace Cadence.Session

open Meter (doneMarker)

namespace Rig

def memory (rig : Rig) (n : Nat) : List UInt8 := (rig.outlet n).memory.toList

structure Serves (k n : Nat) (now : Instant) (held : List UInt8) (rig : Rig) : Prop where
  clock : rig.clocks[k]? = some (.manual now)
  outlet : ∃ o, rig.outlets[n]? = some o ∧ o.faults = .none ∧ o.memory.toList = held

namespace Serves

variable {k n : Nat} {now : Instant} {held : List UInt8} {rig : Rig}

theorem clock_eq (serves : rig.Serves k n now held) : rig.clock (.numbered k) = .manual now :=
  Rig.clock_numbered serves.clock

theorem memory_eq (serves : rig.Serves k n now held) : rig.memory n = held := by
  obtain ⟨o, here, _, holds⟩ := serves.outlet
  rw [Rig.memory, Rig.outlet, Array.getD_eq_getD_getElem?, here, Option.getD_some, holds]

theorem idle (serves : rig.Serves k n now held) : rig.Serves k n now (held ++ []) := by
  rwa [List.append_nil]

theorem setClock (serves : rig.Serves k n now held) (later : Instant) :
    (rig.setClock (.numbered k) (.manual later)).Serves k n later held where
  clock := by
    obtain ⟨inside, _⟩ := Array.getElem?_eq_some_iff.mp serves.clock
    simp [Rig.setClock, inside]
  outlet := serves.outlet

theorem read (serves : rig.Serves k n now held) :
    (Surroundings.read (.numbered k) rig).1 = now ∧
      (Surroundings.read (.numbered k) rig).2.Serves k n now held := by
  change ((rig.clock (.numbered k)).read).1 = now ∧
    (rig.setClock (.numbered k) ((rig.clock (.numbered k)).read).2).Serves k n now held
  rw [serves.clock_eq]
  exact ⟨rfl, serves.setClock now⟩

theorem advance (serves : rig.Serves k n now held) (d : Span) :
    rig.advance (.numbered k) d = match now.plus? d with
      | some later => (.ok (), rig.setClock (.numbered k) (.manual later))
      | none => (.error .instantOverflow, rig) := by
  rw [Rig.advance, serves.clock_eq, Clock.advance]
  cases now.plus? d <;> rfl

theorem log (serves : rig.Serves k n now held) (e : Event) :
    (Surroundings.log e rig).Serves k n now held :=
  ⟨serves.clock, serves.outlet⟩

theorem emit (serves : rig.Serves k n now held) (pieces : List String) :
    (emit (some n) pieces rig).1 = .done ∧
      (Cadence.emit (some n) pieces rig).2.Serves k n now
        (held ++ utf8 (String.join pieces)) := by
  obtain ⟨o, here, healthy, holds⟩ := serves.outlet
  obtain ⟨done, after⟩ := (Rig.outletAt n).emit_healthy pieces here healthy
  refine ⟨done, ?_, _, after, healthy, ?_⟩
  · have clocks : (Cadence.emit (some n) pieces rig).2.clocks = rig.clocks :=
      emit_view Rig.clocks (fun _ _ => rfl) (fun _ => rfl) pieces rig
    rw [clocks]
    exact serves.clock
  · simp [Outlet.afterFlush, Outlet.append, holds]

end Serves

end Rig

structure Shares (k n : Nat) (m : Meter ClockHandle Nat) : Prop where
  clock : m.clock = .numbered k
  destination : m.destination = some n

namespace Shares

variable {k n : Nat} {now : Instant} {held : List UInt8} {m : Meter ClockHandle Nat} {rig : Rig}

theorem line (shares : Shares k n m) (serves : rig.Serves k n now held) :
    (Surroundings.read m.clock rig).1 = now ∧ (m.line rig).1 = .done ∧
      (m.line rig).2.Serves k n now
        (held ++ utf8 (String.join ("\r" :: (m.reportAt now).pieces))) := by
  obtain ⟨shown, read⟩ := serves.read
  rw [← shares.clock] at shown read
  obtain ⟨done, after⟩ :=
    (read.log (.progress m.count (m.reportAt now).rate)).emit ("\r" :: (m.reportAt now).pieces)
  simp only [Meter.line, shares.destination, shown]
  exact ⟨trivial, done, after⟩

theorem settled (shares : Shares k n m) (last : Instant) (r : Report) (delivery : Delivery) :
    Shares k n ({ m with last }.settled r delivery).2 := by
  obtain ⟨clock, destination⟩ := shares
  cases delivery with
  | crashed crash => exact ⟨clock, destination⟩
  | _ =>
    simp only [Meter.settled]
    split <;> exact ⟨clock, destination⟩

end Shares

structure Alike (k n : Nat) (now : Instant) (held held' : List UInt8)
    (life life' : Meter ClockHandle Nat × Rig) : Prop where
  meter : life'.1 = life.1
  shares : Shares k n life.1
  serves : ∃ text, life.2.Serves k n now (held ++ text) ∧ life'.2.Serves k n now (held' ++ text)

theorem Alike.start {k n : Nat} {now : Instant} {held held' : List UInt8}
    {m : Meter ClockHandle Nat} {rig rig' : Rig} (shares : Shares k n m)
    (serves : rig.Serves k n now held) (serves' : rig'.Serves k n now held') :
    Alike k n now held held' (m, rig) (m, rig') :=
  ⟨rfl, shares, [], serves.idle, serves'.idle⟩

theorem Alike.twins {k n : Nat} {now : Instant} {held held' : List UInt8} :
    Twins (fun _ => True) (Alike k n now held held') where
  same := by
    intro m s m' s' alike
    obtain ⟨rfl, _, _⟩ := alike
    exact ⟨rfl, rfl, rfl⟩
  count := by
    intro m s m' s' alike c
    obtain ⟨rfl, ⟨clock, destination⟩, serves⟩ := alike
    exact ⟨rfl, ⟨clock, destination⟩, serves⟩
  report := by
    intro m s m' s' alike occasion _ _
    obtain ⟨rfl, shares, text, serves, serves'⟩ := alike
    obtain ⟨shown, done, after⟩ := shares.line serves
    obtain ⟨shown', done', after'⟩ := shares.line serves'
    rw [List.append_assoc] at after after'
    have ended := Meter.report_survives (m := m') (s := s) (by simp [done])
    have ended' := Meter.report_survives (m := m') (s := s') (by simp [done'])
    rw [shown, Meter.noting_done _ done] at ended
    rw [shown', Meter.noting_done _ done'] at ended'
    change (m'.report s').1 = (m'.report s).1 ∧
      Alike k n now held held' (m'.report s).2 (m'.report s').2
    rw [ended, ended']
    refine ⟨rfl, rfl, shares.settled _ _ _, _, after, after'⟩
  mark := by
    intro m s m' s' alike r _ _
    obtain ⟨rfl, ⟨clock, destination⟩, text, serves, serves'⟩ := alike
    obtain ⟨done, after⟩ := serves.emit [doneMarker]
    obtain ⟨done', after'⟩ := serves'.emit [doneMarker]
    rw [← destination] at done after done' after'
    rw [List.append_assoc] at after after'
    rcases m'.marking_cases r s with ⟨crash, lost, _⟩ | ⟨_, ended⟩
    · cases done.symm.trans lost
    rcases m'.marking_cases r s' with ⟨crash, lost, _⟩ | ⟨_, ended'⟩
    · cases done'.symm.trans lost
    rw [ended, ended', Meter.noting_done _ done, Meter.noting_done _ done']
    exact ⟨rfl, rfl, ⟨clock, destination⟩, _, after.log _, after'.log _⟩

inductive Op
  | begin (interval : Interval)
  | increment
  | incrementBy (n : UInt64)
  | report
  | close
  | retire

namespace Op

def kept (outcome : Attempt (Step.Answer Nat) × Meter ClockHandle Nat × Rig) :
    Attempt (Step.Answer Nat) × Option (Meter ClockHandle Nat) × Rig :=
  (outcome.1, some outcome.2.1, outcome.2.2)

def run (k n : Nat) : Op → Option (Meter ClockHandle Nat) → Rig →
    Attempt (Step.Answer Nat) × Option (Meter ClockHandle Nat) × Rig
  | .begin interval, none, rig =>
    let (m, rig) := Meter.begin interval (some n) (.numbered k) rig
    (.ok .nothing, some m, rig)
  | .increment, some m, rig => kept (Step.increment.run m rig)
  | .incrementBy n, some m, rig => kept ((Step.incrementBy n).run m rig)
  | .report, some m, rig => kept (Step.report.run m rig)
  | .close, some m, rig => kept (Step.close.run m rig)
  | .retire, some m, rig =>
    let (result, rig) := m.retire rig
    (result.map fun _ => .nothing, none, rig)
  | _, m, rig => (.ok .nothing, m, rig)

variable {k n : Nat} {now : Instant} {held held' : List UInt8} {rig rig' : Rig}

def Same (k n : Nat) (now : Instant) (held held' : List UInt8)
    (outcome outcome' : Attempt (Step.Answer Nat) × Option (Meter ClockHandle Nat) × Rig) : Prop :=
  outcome'.1 = outcome.1 ∧ outcome'.2.1 = outcome.2.1 ∧ (∀ m ∈ outcome.2.1, Shares k n m) ∧
    ∃ text, outcome.2.2.Serves k n now (held ++ text) ∧ outcome'.2.2.Serves k n now (held' ++ text)

theorem same_kept (step : Step Rig Nat) (own : step.IsOwn) {m : Meter ClockHandle Nat}
    (shares : Shares k n m) (serves : rig.Serves k n now held)
    (serves' : rig'.Serves k n now held') :
    Same k n now held held' (kept (step.run m rig)) (kept (step.run m rig')) := by
  have alike := Alike.start shares serves serves'
  have agree : Agree (fun _ => True) (Alike k n now held held') (step.course m rig)
      (step.course m rig') := by
    cases step with
    | increment => exact (Alike.twins.incrementing alike).answering _
    | incrementBy n => exact (Alike.twins.incrementingBy n alike).answering _
    | report => exact (Alike.twins.report alike .requested).answering _
    | close => exact (Alike.twins.closing alike).answering _
    | redirect destination => exact own.elim
    | meanwhile change => exact own.elim
  have ended := agree (fun _ _ => True.intro) fun _ _ => True.intro
  rw [Step.course_outcome, Step.course_outcome] at ended
  obtain ⟨result, meter, shares, serves⟩ := ended
  refine ⟨result, congrArg some meter, ?_, serves⟩
  intro m' here
  cases here
  exact shares

/-- What an operation does with a meter depends on the meter and the time, and on nothing else that
is in the session. -/
theorem same (op : Op) {m : Option (Meter ClockHandle Nat)} (shares : ∀ m' ∈ m, Shares k n m')
    (serves : rig.Serves k n now held) (serves' : rig'.Serves k n now held') :
    Same k n now held held' (op.run k n m rig) (op.run k n m rig') := by
  have idle (m : Option (Meter ClockHandle Nat)) (shares : ∀ m' ∈ m, Shares k n m') :
      Same k n now held held' (.ok .nothing, m, rig) (.ok .nothing, m, rig') :=
    ⟨rfl, rfl, shares, [], serves.idle, serves'.idle⟩
  cases m with
  | none =>
    cases op with
    | begin interval =>
      obtain ⟨shown, read⟩ := serves.read
      obtain ⟨shown', read'⟩ := serves'.read
      simp only [run, Meter.begin, shown, shown']
      refine ⟨rfl, rfl, ?_, [], (read.log _).idle, (read'.log _).idle⟩
      intro m begun
      cases begun
      exact ⟨rfl, rfl⟩
    | _ => exact idle none shares
  | some m =>
    have here := shares m rfl
    cases op with
    | begin interval => exact idle (some m) shares
    | increment => exact same_kept .increment True.intro here serves serves'
    | incrementBy n => exact same_kept (.incrementBy n) True.intro here serves serves'
    | report => exact same_kept .report True.intro here serves serves'
    | close => exact same_kept .close True.intro here serves serves'
    | retire =>
      -- the end of a life is a closing after which the meter is gone
      have closed := Alike.twins.closing (Alike.start here serves serves')
        (fun _ _ => True.intro) fun _ _ => True.intro
      rw [Meter.closing_outcome, Meter.closing_outcome] at closed
      obtain ⟨result, _, _, written⟩ := closed
      simp only [run, Meter.retire_eq, result]
      refine ⟨rfl, rfl, ?_, written⟩
      intro m' left
      cases left

end Op

variable {ι : Type}

inductive Turn (ι : Type)
  | advance (d : Span)
  | act (i : ι) (op : Op)

structure Fleet (ι : Type) where
  meters : ι → Option (Meter ClockHandle Nat)
  rig : Rig

structure Entry (ι : Type) where
  turn : Turn ι
  result : Attempt (Step.Answer Nat)
  meter : Option (Meter ClockHandle Nat)
  bytes : List UInt8

section

variable [DecidableEq ι]

namespace Turn

def concerns (i : ι) : Turn ι → Bool
  | .advance _ => true
  | .act j _ => j = i

def run (k n : Nat) : Turn ι → Fleet ι →
    Attempt (Step.Answer Nat) × Option (Meter ClockHandle Nat) × Fleet ι
  | .advance d, fleet =>
    let (result, rig) := fleet.rig.advance (.numbered k) d
    (result.map fun _ => .nothing, none, { fleet with rig })
  | .act i op, fleet =>
    let (result, m, rig) := op.run k n (fleet.meters i) fleet.rig
    (result, m, { meters := Function.update fleet.meters i m, rig })

def entry (k n : Nat) (turn : Turn ι) (fleet : Fleet ι) : Entry ι :=
  let after := turn.run k n fleet
  { turn, result := after.1, meter := after.2.1
    bytes := (after.2.2.rig.memory n).drop (fleet.rig.memory n).length }

end Turn

namespace Fleet

def through (k n : Nat) : List (Turn ι) → Fleet ι → Fleet ι
  | [], fleet => fleet
  | turn :: turns, fleet => through k n turns (turn.run k n fleet).2.2

def trace (k n : Nat) : List (Turn ι) → Fleet ι → List (Entry ι)
  | [], _ => []
  | turn :: turns, fleet => turn.entry k n fleet :: trace k n turns (turn.run k n fleet).2.2

/-- All meters share the `k`-th clock, which shows an instant, and the `n`-th outlet, which is
healthy and holds some bytes. -/
structure Harbours (k n : Nat) (now : Instant) (held : List UInt8) (fleet : Fleet ι) : Prop where
  shares : ∀ i, ∀ m ∈ fleet.meters i, Shares k n m
  serves : fleet.rig.Serves k n now held

variable {k n : Nat} {now : Instant} {held held' : List UInt8} {fleet fleet' : Fleet ι} {i : ι}

omit [DecidableEq ι] in
theorem Harbours.idle (harbours : fleet.Harbours k n now held) :
    fleet.Harbours k n now (held ++ []) :=
  ⟨harbours.shares, harbours.serves.idle⟩

theorem Harbours.bytes (harbours : fleet.Harbours k n now held) {turn : Turn ι} {later : Instant}
    {text : List UInt8} (after : (turn.run k n fleet).2.2.Harbours k n later (held ++ text)) :
    (turn.entry k n fleet).bytes = text := by
  rw [Turn.entry, after.serves.memory_eq, harbours.serves.memory_eq, List.drop_left]

theorem Harbours.advance (harbours : fleet.Harbours k n now held) (d : Span) :
    ((Turn.advance d).run k n fleet).2.2.Harbours k n ((now.plus? d).getD now) held ∧
      ((Turn.advance d).run k n fleet).2.2.meters = fleet.meters ∧
      (Turn.advance d).entry k n fleet =
        { turn := .advance d, meter := none, bytes := []
          result := if (now.plus? d).isSome then .ok .nothing else .error .instantOverflow } := by
  have moved : ((Turn.advance d).run k n fleet).2.2.Harbours k n ((now.plus? d).getD now) held ∧
      ((Turn.advance d).run k n fleet).2.2.meters = fleet.meters ∧
      ((Turn.advance d).run k n fleet).1 =
        if (now.plus? d).isSome then .ok .nothing else .error .instantOverflow := by
    simp only [Turn.run, harbours.serves.advance]
    cases now.plus? d with
    | none => exact ⟨harbours, trivial, rfl⟩
    | some later => exact ⟨⟨harbours.shares, harbours.serves.setClock later⟩, trivial, rfl⟩
  obtain ⟨after, meters, result⟩ := moved
  have bytes : ((Turn.advance d).entry k n fleet).bytes = [] := harbours.bytes after.idle
  refine ⟨after, meters, ?_⟩
  simp only [Turn.entry] at bytes ⊢
  rw [bytes, result]
  rfl

theorem shares_update (shares : ∀ j, ∀ m ∈ fleet.meters j, Shares k n m)
    {m : Option (Meter ClockHandle Nat)} (here : ∀ m' ∈ m, Shares k n m') (j : ι) :
    ∀ m' ∈ Function.update fleet.meters i m j, Shares k n m' := by
  by_cases same : j = i
  · subst same
    rwa [Function.update_self]
  · rw [Function.update_of_ne same]
    exact shares j

/-- What is done with a meter goes alike in every fleet that has it at this time, and the same bytes
come to the outlet. -/
theorem Harbours.act (harbours : fleet.Harbours k n now held)
    (harbours' : fleet'.Harbours k n now held') (same : fleet'.meters i = fleet.meters i)
    (op : Op) :
    ∃ text, ((Turn.act i op).run k n fleet).2.2.Harbours k n now (held ++ text) ∧
      ((Turn.act i op).run k n fleet').2.2.Harbours k n now (held' ++ text) ∧
      ((Turn.act i op).run k n fleet').2.2.meters i =
        ((Turn.act i op).run k n fleet).2.2.meters i ∧
      (Turn.act i op).entry k n fleet' = (Turn.act i op).entry k n fleet := by
  obtain ⟨result, meter, shares, text, serves, serves'⟩ :=
    op.same (harbours.shares i) harbours.serves harbours'.serves
  have after : ((Turn.act i op).run k n fleet).2.2.Harbours k n now (held ++ text) :=
    ⟨shares_update harbours.shares shares, serves⟩
  have after' : ((Turn.act i op).run k n fleet').2.2.Harbours k n now (held' ++ text) := by
    simp only [Turn.run, same, meter]
    exact ⟨shares_update harbours'.shares shares, serves'⟩
  have bytes := harbours.bytes after
  have bytes' := harbours'.bytes after'
  refine ⟨text, after, after', ?_, ?_⟩
  · simp only [Turn.run, same, meter, Function.update_self]
  · simp only [Turn.entry] at bytes bytes' ⊢
    rw [bytes, bytes']
    simp only [Turn.run, same, result, meter]

theorem Harbours.turn (harbours : fleet.Harbours k n now held)
    (harbours' : fleet'.Harbours k n now held') (same : fleet'.meters i = fleet.meters i)
    {turn : Turn ι} (concerns : turn.concerns i) :
    ∃ later text, (turn.run k n fleet).2.2.Harbours k n later (held ++ text) ∧
      (turn.run k n fleet').2.2.Harbours k n later (held' ++ text) ∧
      (turn.run k n fleet').2.2.meters i = (turn.run k n fleet).2.2.meters i ∧
      turn.entry k n fleet' = turn.entry k n fleet := by
  cases turn with
  | advance d =>
    obtain ⟨after, meters, entry⟩ := harbours.advance d
    obtain ⟨after', meters', entry'⟩ := harbours'.advance d
    refine ⟨_, [], after.idle, after'.idle, ?_, entry'.trans entry.symm⟩
    rw [meters, meters', same]
  | act j op =>
    obtain rfl : j = i := of_decide_eq_true concerns
    exact ⟨now, harbours.act harbours' same op⟩

/-- A turn of others leaves a meter as it is. -/
theorem Harbours.other (harbours : fleet.Harbours k n now held) {turn : Turn ι}
    (elsewhere : ¬ turn.concerns i) :
    (∃ text, (turn.run k n fleet).2.2.Harbours k n now (held ++ text)) ∧
      (turn.run k n fleet).2.2.meters i = fleet.meters i := by
  cases turn with
  | advance d => exact absurd rfl elsewhere
  | act j op =>
    obtain ⟨text, after, _⟩ := harbours.act harbours (i := j) rfl op
    have other : ¬ i = j := fun same => elsewhere (decide_eq_true same.symm)
    exact ⟨⟨text, after⟩, Function.update_of_ne other _ _⟩

/-- The turns of other meters are left out of a run, and it stays the same for the one. -/
theorem Harbours.alone (i : ι) (turns : List (Turn ι)) {now : Instant} {held held' : List UInt8}
    {fleet fleet' : Fleet ι} (harbours : fleet.Harbours k n now held)
    (harbours' : fleet'.Harbours k n now held') (same : fleet'.meters i = fleet.meters i) :
    fleet'.trace k n (turns.filter (·.concerns i)) =
        (fleet.trace k n turns).filter (·.turn.concerns i) ∧
      (fleet'.through k n (turns.filter (·.concerns i))).meters i =
        (fleet.through k n turns).meters i ∧
      (fleet'.through k n (turns.filter (·.concerns i))).rig.clock (.numbered k) =
        (fleet.through k n turns).rig.clock (.numbered k) := by
  induction turns generalizing now held held' fleet fleet' with
  | nil =>
    refine ⟨rfl, same, ?_⟩
    exact harbours'.serves.clock_eq.trans harbours.serves.clock_eq.symm
  | cons turn turns rest =>
    by_cases concerns : turn.concerns i
    · obtain ⟨later, text, after, after', kept, entry⟩ := harbours.turn harbours' same concerns
      obtain ⟨trace, ended⟩ := rest after after' kept
      rw [List.filter_cons_of_pos concerns, Fleet.trace, Fleet.trace, List.filter_cons_of_pos,
        trace, entry]
      · exact ⟨rfl, ended⟩
      · exact concerns
    · obtain ⟨⟨text, after⟩, kept⟩ := harbours.other concerns
      obtain ⟨trace, ended⟩ := rest after harbours' (same.trans kept.symm)
      rw [List.filter_cons_of_neg concerns, Fleet.trace, List.filter_cons_of_neg, trace]
      · exact ⟨rfl, ended⟩
      · exact concerns

theorem Harbours.moved (harbours : fleet.Harbours k n now held) (turn : Turn ι) :
    ∃ later text, (turn.run k n fleet).2.2.Harbours k n later (held ++ text) := by
  cases turn with
  | advance d => exact ⟨_, [], (harbours.advance d).1.idle⟩
  | act j op =>
    obtain ⟨text, after, _⟩ := harbours.act harbours (i := j) rfl op
    exact ⟨now, text, after⟩

/-- The outlet holds what came to it turn by turn. -/
theorem Harbours.through (turns : List (Turn ι)) {now : Instant} {held : List UInt8}
    {fleet : Fleet ι} (harbours : fleet.Harbours k n now held) :
    ∃ later, (fleet.through k n turns).Harbours k n later
      (held ++ (fleet.trace k n turns).flatMap Entry.bytes) := by
  induction turns generalizing now held fleet with
  | nil => exact ⟨now, harbours.idle⟩
  | cons turn turns rest =>
    obtain ⟨later, text, after⟩ := harbours.moved turn
    obtain ⟨last, ended⟩ := rest after
    refine ⟨last, ?_⟩
    rw [Fleet.trace, List.flatMap_cons, harbours.bytes after, ← List.append_assoc]
    exact ended

theorem turns_of_trace (k n : Nat) (turns : List (Turn ι)) (fleet : Fleet ι) :
    (fleet.trace k n turns).map Entry.turn = turns := by
  induction turns generalizing fleet with
  | nil => rfl
  | cons turn turns rest => exact congrArg (turn :: ·) (rest _)

/-- The clock writes nothing. -/
theorem Harbours.silent (turns : List (Turn ι)) {now : Instant} {held : List UInt8}
    {fleet : Fleet ι} (harbours : fleet.Harbours k n now held) :
    ∀ entry ∈ fleet.trace k n turns, ∀ d, entry.turn = .advance d → entry.bytes = [] := by
  induction turns generalizing now held fleet with
  | nil => exact List.forall_mem_nil _
  | cons turn turns rest =>
    obtain ⟨later, text, after⟩ := harbours.moved turn
    refine List.forall_mem_cons.mpr ⟨?_, rest after⟩
    intro d advance
    cases advance
    rw [(harbours.advance d).2.2]

end Fleet

/-- Meters that share a manual clock and a healthy outlet, whatever is done with which of them in
between, live as they would without the others: the same comes of everything done with one, and it
is in the same state after that. The outlet gets, turn by turn, what the same turn writes in the run
of that meter alone. -/
theorem trace_among_others {k n : Nat} {rig : Rig} {now : Instant} {o : Outlet}
    (manual : rig.clocks[k]? = some (.manual now)) (here : rig.outlets[n]? = some o)
    (healthy : o.faults = .none) (turns : List (Turn ι)) :
    let start : Fleet ι := ⟨fun _ => none, rig⟩
    let trace := start.trace k n turns
    let last := start.through k n turns
    trace.map Entry.turn = turns ∧
    (∀ entry ∈ trace, ∀ d, entry.turn = .advance d → entry.bytes = []) ∧
    last.rig.memory n = rig.memory n ++ trace.flatMap Entry.bytes ∧
    ∀ i,
      let own := turns.filter (·.concerns i)
      start.trace k n own = trace.filter (·.turn.concerns i) ∧
      (start.through k n own).meters i = last.meters i ∧
      (start.through k n own).rig.clock (.numbered k) = last.rig.clock (.numbered k) ∧
      (start.through k n own).rig.memory n =
        rig.memory n ++ (trace.filter (·.turn.concerns i)).flatMap Entry.bytes := by
  intro start trace last
  have serves : rig.Serves k n now (rig.memory n) := by
    refine ⟨manual, o, here, healthy, ?_⟩
    rw [Rig.memory, Rig.outlet, Array.getD_eq_getD_getElem?, here, Option.getD_some]
  have harbours : start.Harbours k n now (rig.memory n) := by
    refine ⟨?_, serves⟩
    intro i m begun
    cases begun
  obtain ⟨later, ended⟩ := harbours.through turns
  refine ⟨start.turns_of_trace k n turns, harbours.silent turns, ended.serves.memory_eq, ?_⟩
  intro i own
  obtain ⟨alone, meters, clock⟩ := Fleet.Harbours.alone i turns harbours harbours rfl
  obtain ⟨_, ended⟩ := harbours.through own
  refine ⟨alone, meters, clock, ?_⟩
  rw [ended.serves.memory_eq, alone]

end

theorem trace_among_two :
    let rig := { Rig.empty with clocks := #[.manual Rig.origin], outlets := #[.empty] }
    let start : Fleet Bool := ⟨fun _ => none, rig⟩
    let turns : List (Turn Bool) := [.act true (.begin ⟨2, by decide⟩),
      .act false (.begin ⟨3, by decide⟩), .act true (.incrementBy 3), .advance ⟨5⟩,
      .act false .report, .act true .increment, .act false .retire, .act true .close]
    start.trace 0 0 (turns.filter (·.concerns true)) =
        (start.trace 0 0 turns).filter (·.turn.concerns true) ∧
      (start.through 0 0 turns).rig.memory 0 =
        rig.memory 0 ++ (start.trace 0 0 turns).flatMap Entry.bytes := by
  intro rig start turns
  have manual : rig.clocks[0]? = some (.manual Rig.origin) := rfl
  have here : rig.outlets[0]? = some .empty := rfl
  obtain ⟨_, _, memory, alone⟩ := trace_among_others manual here rfl turns
  exact ⟨(alone true).1, memory⟩

end Cadence.Session
