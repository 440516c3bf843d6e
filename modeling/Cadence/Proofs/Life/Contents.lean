import Cadence.Proofs.Emission.Outlet
import Cadence.Proofs.Life.Bound
import Cadence.Proofs.Life.Closing
import Cadence.Proofs.Life.Tally
import Cadence.Proofs.Text.Transcript

namespace Cadence

open Session

variable {σ κ δ : Type}

def Deed.written : Deed δ → String
  | .report call => "\r" ++ call.report.text
  | .mark _ _ => Meter.doneMarker

def written (deeds : List (Deed δ)) : String := String.join (deeds.map Deed.written)

theorem written_append (first second : List (Deed δ)) :
    written (first ++ second) = written first ++ written second := by
  rw [written, List.map_append, String.join_append]
  rfl

theorem transcript_append (first second : List (Call δ)) :
    transcript (first ++ second) = transcript first ++ transcript second := by
  rw [transcript, List.map_append, String.join_append]
  rfl

/-- Every closing report has its marker right after it, and there is no other marker. -/
structure Told (deeds : List (Deed δ)) : Prop where
  written : written deeds = transcript (calls deeds)
  marked : (marks deeds).length = (calls deeds).countP (·.occasion = .closing)

namespace Told

theorem nothing : Told ([] : List (Deed δ)) := ⟨rfl, rfl⟩

theorem append {first second : List (Deed δ)} (before : Told first) (after : Told second) :
    Told (first ++ second) where
  written := by
    rw [written_append, calls_append, transcript_append, before.written, after.written]
  marked := by
    rw [marks_append, calls_append, List.length_append, List.countP_append, before.marked,
      after.marked]

theorem report {call : Call δ} (going : call.occasion ≠ .closing) : Told [.report call] where
  written := by
    simp [Cadence.written, transcript, Deed.written, Call.said, going]
  marked := by
    simp [going]

theorem closing {call : Call δ} (closing : call.occasion = .closing) (destination : Option δ)
    (delivery : Delivery) : Told [.report call, .mark destination delivery] where
  written := by
    simp [Cadence.written, transcript, Deed.written, Call.said, closing]
  marked := by
    simp [closing]

theorem passage {m m' : Meter κ δ} {deeds : List (Deed δ)} (passage : Passage m deeds m') :
    Told deeds := by
  have unmarked := passage.unmarked
  have periodic := passage.periodic
  clear passage
  induction deeds with
  | nil => exact nothing
  | cons deed deeds rest =>
    cases deed with
    | report call =>
      have going : call.occasion ≠ .closing := by
        rw [periodic call List.mem_cons_self]
        decide
      have others := rest unmarked fun other member =>
        periodic other (List.mem_cons_of_mem _ member)
      exact (report going).append others
    | mark destination delivery => cases unmarked

variable [Surroundings σ κ δ]

theorem close (m : Meter κ δ) (s : σ)
    (came : ∀ call ∈ calls (m.closing s).deeds, call.returned = true) :
    Told (m.closing s).deeds := by
  by_cases shut : m.finished = true
  · rw [Meter.closing_finished shut]
    exact nothing
  · rw [Meter.closing_open shut] at came ⊢
    rcases m.report_cases .closing s with ⟨_, _, _, s', ok⟩ | ⟨left, crash, s', error, _⟩
    · rw [Meter.reporting_andThen_ok _ ok]
      exact closing rfl _ _
    · rw [Meter.reporting_andThen_error _ error] at came
      have back := came _ List.mem_cons_self
      rw [left] at back
      cases back

theorem course (step : Step σ δ) (m : Meter κ δ) (s : σ)
    (came : ∀ call ∈ calls (step.course m s).deeds, call.returned = true) :
    Told (step.course m s).deeds := by
  cases step with
  | increment => exact passage (m.incrementing_passage s)
  | incrementBy n => exact passage (m.incrementingBy_passage n s)
  | report => exact report (by rintro ⟨⟩)
  | close => exact close m s came
  | redirect destination => exact nothing
  | meanwhile change => exact nothing

theorem journal (steps : List (Step σ δ)) (life : Meter κ δ × σ)
    (came : ∀ call ∈ calls (Step.journal steps life), call.returned = true) :
    Told (Step.journal steps life) := by
  induction steps generalizing life with
  | nil => exact nothing
  | cons step steps rest =>
    simp only [Step.journal, calls_append, List.mem_append] at came
    have first := course step life.1 life.2 fun call member => came call (.inl member)
    have others := rest _ fun call member => came call (.inr member)
    exact first.append others

end Told

variable [Surroundings σ κ δ]

def Holds (outlet? : σ → Option Outlet) (deeds : List (Deed δ)) (s : σ) : Prop :=
  ∃ o, outlet? s = some o ∧ o.faults = .none ∧ o.memory = (utf8 (written deeds)).toArray

theorem Holds.contents {outlet? : σ → Option Outlet} {deeds : List (Deed δ)} {s : σ}
    (holds : Holds outlet? deeds s) :
    ∃ o, outlet? s = some o ∧ o.contents = written deeds := by
  obtain ⟨o, here, _, memory⟩ := holds
  exact ⟨o, here, by rw [Outlet.contents, memory]; exact Lossy.decode_utf8 _⟩

theorem Holds.moved {outlet? : σ → Option Outlet} {deeds : List (Deed δ)} {s s' : σ}
    (holds : Holds outlet? deeds s) (same : outlet? s' = outlet? s) : Holds outlet? deeds s' := by
  obtain ⟨o, here, rest⟩ := holds
  exact ⟨o, same.trans here, rest⟩

namespace Session.OutletAt

variable {d : δ} {outlet? : σ → Option Outlet} {deeds : List (Deed δ)} {s : σ}

theorem emit_holds (place : OutletAt d outlet?) (holds : Holds outlet? deeds s) (deed : Deed δ)
    (pieces : List String) (text : String.join pieces = deed.written) :
    (emit (some d) pieces s).1 = .done ∧
      Holds outlet? (deeds ++ [deed]) (emit (some d) pieces s).2 := by
  obtain ⟨o, here, healthy, memory⟩ := holds
  obtain ⟨done, after⟩ := place.emit_healthy pieces here healthy
  have single : written [deed] = deed.written := by simp [written]
  refine ⟨done, _, after, healthy, ?_⟩
  rw [written_append, utf8_append, single, ← text, Outlet.afterFlush, Outlet.append, memory]
  simp

theorem reliable (place : OutletAt d outlet?) : Reliable (· = some d) (Holds outlet?) := by
  constructor
  case report =>
    intro deeds s occasion m destination holds
    have before : Holds outlet? deeds (Surroundings.log
        (.progress (m.call occasion s).report.count (m.call occasion s).report.rate)
        (Surroundings.read m.clock s).2) :=
      holds.moved (by rw [place.log, place.read])
    have line := place.emit_holds before (.report (m.call occasion s))
      ("\r" :: (m.call occasion s).report.pieces) String.join_cons
    rw [← destination] at line
    change (m.line s).1 = .done ∧ Holds outlet? _ (m.line s).2 at line
    rw [Meter.noting_done _ line.1, line.1]
    exact ⟨by simp, line.2⟩
  case mark =>
    intro deeds s destination r same holds
    subst same
    have marker := place.emit_holds holds (.mark (some d) (emit (some d) [Meter.doneMarker] s).1)
      [Meter.doneMarker] rfl
    rw [Meter.noting_done _ marker.1]
    refine ⟨by simp [marker.1], marker.2.moved (place.log _ _)⟩

end Session.OutletAt

def Step.Apart (outlet? : σ → Option Outlet) : Step σ δ → Prop
  | .redirect _ => False
  | .meanwhile change => ∀ s, outlet? (change s) = outlet? s
  | _ => True

theorem Step.Apart.within {outlet? : σ → Option Outlet} {step : Step σ δ}
    (apart : step.Apart outlet?) (d : δ) : step.Within (· = some d) (Holds outlet?) := by
  cases step with
  | redirect destination => exact apart.elim
  | meanwhile change => exact fun _ s holds => holds.moved (apart s)
  | _ => exact True.intro

/-- A meter with a healthy outlet to itself leaves exactly its reports there, in order and each
after a return to the start of the line, with the marker after the closing report; so the returns
count the reports, the marker tells whether it is finished, and cutting at the returns recovers what
was printed. The end of its life writes as a closing does. -/
theorem contents_of_run {d : δ} {outlet? : σ → Option Outlet} (place : OutletAt d outlet?)
    (interval : Interval) (clock : κ) {s : σ} (empty : outlet? s = some .empty)
    (steps : List (Step σ δ)) (apart : ∀ step ∈ steps, step.Apart outlet?)
    (few : (calls (Step.journal steps (Meter.begin interval (some d) clock s))).length <
      18446744073709551616) :
    let start := Meter.begin interval (some d) clock s
    let reported := calls (Step.journal steps start)
    let m := (Step.through steps start).1
    let now := (Step.through steps start).2
    (∃ o, outlet? now = some o ∧ o.contents = transcript reported ∧
      o.contents.toList.count '\r' = m.reports.toNat ∧
      occurrences Meter.doneMarker.toList o.contents.toList = (if m.finished then 1 else 0) ∧
      (o.contents.toList.splitOn '\r').tail.map Report.readLine? =
        reported.map fun call => some call.report.printed) ∧
    (m.retire now).2 = (Step.through (steps ++ [.close]) start).2 := by
  intro start reported m now
  have initially : Holds outlet? ([] : List (Deed δ)) start.2 :=
    ⟨.empty, by rw [← empty, ← place.read clock s]; exact place.log _ _, rfl, rfl⟩
  have smooth := Smooth.run place.reliable interval clock s rfl initially steps
    (fun step member => (apart step member).within d) (Nat.le_of_lt_succ few)
  have told := Told.journal steps start smooth.came
  obtain ⟨o, here, contents⟩ := smooth.sofar.contents
  rw [told.written] at contents
  refine ⟨⟨o, here, contents, ?_, ?_, ?_⟩, ?_⟩
  · rw [contents, count_return_transcript]
    exact smooth.reports.symm
  · rw [contents, occurrences_transcript, ← told.marked]
    exact smooth.marked
  · rw [contents]
    exact read_transcript _
  · rw [Meter.retire_eq, Step.through_append]
    rfl

/-- In a session whose clock stands still at first, so that the first rate is infinite. -/
theorem contents_of_run_in_session :
    let rig := { Rig.empty with clocks := #[.manual Rig.origin], outlets := #[.empty] }
    let start := Meter.begin ⟨2, by decide⟩ (some 0) (.numbered 0) rig
    let steps : List (Step Rig Nat) := [.incrementBy 3,
      .meanwhile fun rig => (rig.advance (.numbered 0) ⟨5⟩).2, .report, .close, .increment, .close]
    ∃ o, (Step.through steps start).2.outlets[0]? = some o ∧
      o.contents = transcript (calls (Step.journal steps start)) ∧
      o.contents.toList.count '\r' = (Step.through steps start).1.reports.toNat := by
  intro rig start steps
  have apart : ∀ step ∈ steps, step.Apart fun rig : Rig => rig.outlets[0]? := by
    simp only [steps, List.forall_mem_cons]
    refine ⟨trivial, ?_, trivial, trivial, trivial, trivial, List.forall_mem_nil _⟩
    intro rig
    simp only [Rig.advance]
    split <;> rfl
  have few : (calls (Step.journal steps start)).length < 18446744073709551616 :=
    Nat.lt_of_le_of_lt (calls_journal_le _ start) (by decide)
  obtain ⟨⟨o, here, contents, returns, _⟩, _⟩ :=
    contents_of_run (Rig.outletAt 0) ⟨2, by decide⟩ (.numbered 0) rfl steps apart few
  exact ⟨o, here, contents, returns⟩

end Cadence
