import Cadence.Proofs.Life.Contents
import Cadence.Proofs.Life.Law
import Cadence.Proofs.Text.Intact
import Cadence.Session.Run

namespace Cadence.Session

open Meter (doneMarker)

namespace Outlet

variable {o : Outlet}

theorem reply_healthy (healthy : o.faults = .none) (bytes : List UInt8) :
    o.reply bytes = .accepted bytes.length := by
  simp [reply, healthy, Faults.none]

theorem afterReply_healthy (healthy : o.faults = .none) (bytes : List UInt8) :
    o.afterReply bytes (.accepted bytes.length) = o.append bytes := by
  have limit : { o.faults with limit := o.faults.limit.map (· - bytes.length) } = o.faults := by
    rw [healthy]
    rfl
  simp only [afterReply, limit, List.take_length, append]

end Outlet

namespace Rig

def Keeps (n : Nat) (held : List UInt8) (rig : Rig) : Prop :=
  ∃ o, rig.outlets[n]? = some o ∧ o.faults = .none ∧ o.memory.toList = held

namespace Keeps

variable {n : Nat} {held : List UInt8} {rig : Rig}

theorem idle (keeps : rig.Keeps n held) : rig.Keeps n (held ++ []) := by
  rwa [List.append_nil]

theorem outlet (keeps : rig.Keeps n held) : (rig.outlet n).memory.toList = held := by
  obtain ⟨o, here, _, holds⟩ := keeps
  rw [Rig.outlet, Array.getD_eq_getD_getElem?, here, Option.getD_some, holds]

theorem modifyOutlet (keeps : rig.Keeps n held) {f : Outlet → Outlet} {after : List UInt8}
    (healthy : ∀ o, (f o).faults = o.faults)
    (holds : ∀ o : Outlet, o.memory.toList = held → (f o).memory.toList = after) :
    (rig.modifyOutlet n f).Keeps n after := by
  obtain ⟨o, here, fine, memory⟩ := keeps
  refine ⟨f o, ?_, (healthy o).trans fine, holds o memory⟩
  rw [Rig.modifyOutlet, Array.getElem?_modify, if_pos rfl, here, Option.map_some]

theorem addOutlet (rig : Rig) : (rig.addOutlet .empty).2.Keeps rig.outlets.size [] :=
  ⟨.empty, Array.getElem?_push_size, rfl, rfl⟩

theorem append (keeps : rig.Keeps n held) (bytes : List UInt8) :
    (rig.modifyOutlet n fun o => o.append bytes).Keeps n (held ++ bytes) := by
  refine keeps.modifyOutlet (fun _ => rfl) ?_
  rintro o rfl
  simp [Outlet.append]

theorem clear (keeps : rig.Keeps n held) : (rig.modifyOutlet n Outlet.clear).Keeps n [] :=
  keeps.modifyOutlet (fun _ => rfl) fun _ _ => rfl

theorem write (keeps : rig.Keeps n held) (bytes : List UInt8) :
    (Surroundings.write (some n) bytes rig).2.Keeps n (held ++ bytes) := by
  obtain ⟨o, here, healthy, holds⟩ := keeps
  obtain ⟨_, after⟩ := (Rig.outletAt n).write bytes here
  rw [Outlet.reply_healthy healthy, Outlet.afterReply_healthy healthy] at after
  exact ⟨_, after, healthy, by simp [Outlet.append, holds]⟩

theorem read (keeps : rig.Keeps n held) (clock : ClockHandle) :
    (Surroundings.read clock rig).2.Keeps n held := by
  obtain ⟨o, here, rest⟩ := keeps
  exact ⟨o, ((Rig.outletAt n).read clock rig).trans here, rest⟩

theorem log (keeps : rig.Keeps n held) (e : Event) : (Surroundings.log e rig).Keeps n held :=
  keeps

theorem emit (keeps : rig.Keeps n held) (pieces : List String) :
    (emit (some n) pieces rig).1 = .done ∧
      (Cadence.emit (some n) pieces rig).2.Keeps n (held ++ utf8 (String.join pieces)) := by
  obtain ⟨o, here, healthy, holds⟩ := keeps
  obtain ⟨done, after⟩ := (Rig.outletAt n).emit_healthy pieces here healthy
  exact ⟨done, _, after, healthy, by simp [Outlet.afterFlush, Outlet.append, holds]⟩

end Keeps

def WritesTo (n : Nat) (before : Meter ClockHandle Nat × Rig) (deeds : List (Deed Nat))
    (after : Meter ClockHandle Nat × Rig) : Prop :=
  before.1.destination = some n → after.1.destination = some n ∧
    ∀ held, before.2.Keeps n held → after.2.Keeps n (held ++ utf8 (written deeds))

theorem WritesTo.law (n : Nat) : Law (WritesTo n) where
  stay life destination := ⟨destination, fun _ keeps => keeps.idle⟩
  trans := by
    intro before mid after first second there onward destination
    obtain ⟨still, early⟩ := there destination
    obtain ⟨stays, late⟩ := onward still
    refine ⟨stays, fun held keeps => ?_⟩
    rw [written_append, utf8_append, ← List.append_assoc]
    exact late _ (early held keeps)
  count m s c destination := ⟨destination, fun _ keeps => keeps.idle⟩
  report := by
    intro occasion m s destination
    obtain ⟨last, reports, frame⟩ := m.report_frame s
    refine ⟨by rw [frame]; exact destination, fun held keeps => ?_⟩
    have line := ((keeps.read m.clock).log (.progress (m.call occasion s).report.count
      (m.call occasion s).report.rate)).emit ("\r" :: (m.call occasion s).report.pieces)
    rw [← destination] at line
    change (m.line s).1 = .done ∧ (m.line s).2.Keeps n _ at line
    rw [m.report_surroundings, Meter.noting_done _ line.1]
    rw [String.join_cons] at line
    exact line.2
  mark := by
    intro r m s _ destination
    rcases m.marking_cases r s with ⟨crash, lost, ended⟩ | ⟨_, ended⟩
    · refine ⟨by rw [ended]; exact destination, fun held keeps => ?_⟩
      have marker := keeps.emit [doneMarker]
      rw [← destination, lost] at marker
      cases marker.1
    · refine ⟨by rw [ended]; exact destination, fun held keeps => ?_⟩
      have marker := keeps.emit [doneMarker]
      rw [← destination] at marker
      rw [ended, Meter.noting_done _ marker.1]
      exact marker.2.log _

end Rig

section

variable {s : Session} {sink : String} {n : Nat}

theorem run_sinkNamed_bind {α : Type} (here : Keyed.get? sink s.sinks = some n)
    (f : Nat → SessionM α) : (sinkNamed sink >>= f).run s = (f n).run s := by
  change ((known (Keyed.get? sink s.sinks) : SessionM Nat) >>= f).run s = (f n).run s
  rw [here]
  rfl

theorem run_makeSink (s : Session) (sink : String) (o : Outlet) :
    (run (.makeSink sink o)).run s = (.ok .nothing,
      { s with rig := (s.rig.addOutlet o).2
               sinks := Keyed.insert sink s.rig.outlets.size s.sinks
               seen := Keyed.insert sink ⟨"", 0⟩ s.seen }) := rfl

theorem run_shareSink (here : Keyed.get? sink s.sinks = some n) (name : String) :
    (run (.shareSink sink name)).run s = (.ok .nothing,
      { s with sinks := Keyed.insert name n s.sinks
               seen := Keyed.insert name ⟨"", 0⟩ s.seen }) := by
  rw [run, run_sinkNamed_bind here]
  rfl

theorem run_write (here : Keyed.get? sink s.sinks = some n) (bytes : List UInt8) :
    (run (.write sink bytes)).run s = (.ok (.number bytes.length),
      { s with rig := s.rig.modifyOutlet n fun o => o.append bytes }) := by
  rw [run, run_sinkNamed_bind here]
  rfl

theorem run_clear (here : Keyed.get? sink s.sinks = some n) :
    (run (.clear sink)).run s = (.ok .nothing,
      { s with rig := s.rig.modifyOutlet n Outlet.clear }) := by
  rw [run, run_sinkNamed_bind here]
  rfl

theorem run_contents (here : Keyed.get? sink s.sinks = some n) :
    (run (.contents sink)).run s = (.ok (.contents (s.shown (s.rig.outlet n).contents)
      (if s.masked then none else some (s.rig.outlet n).memory.size)
      (s.rig.outlet n).memory.isEmpty), s) := by
  rw [run, run_sinkNamed_bind here]
  rfl

end

inductive Handling
  | share (sink name : String)
  | write (sink : String) (bytes : List UInt8)
  | offer (sink : String) (bytes : List UInt8)
  | clear (sink : String)
  | step (sink : String) (m : Meter ClockHandle Nat) (step : Step Rig Nat)

namespace Handling

def sink : Handling → String
  | .share sink _ | .write sink _ | .offer sink _ | .clear sink | .step sink _ _ => sink

def names (known : List String) : Handling → List String
  | .share _ name => name :: known
  | _ => known

def IsOwn : Handling → Prop
  | .step _ _ taken => taken.IsOwn
  | _ => True

def IsClear : Handling → Prop
  | .clear _ => True
  | _ => False

def placed (s : Session) (sink : String) (m : Meter ClockHandle Nat) : Meter ClockHandle Nat :=
  { m with destination := Keyed.get? sink s.sinks }

def run (s : Session) : Handling → Session
  | .share sink name => ((Session.run (.shareSink sink name)).run s).2
  | .write sink bytes => ((Session.run (.write sink bytes)).run s).2
  | .offer sink bytes =>
    { s with rig := (Surroundings.write (Keyed.get? sink s.sinks) bytes s.rig).2 }
  | .clear sink => ((Session.run (.clear sink)).run s).2
  | .step sink m taken => { s with rig := (taken.run (placed s sink m) s.rig).2.2 }

def bytes (s : Session) : Handling → List UInt8
  | .write _ bytes | .offer _ bytes => bytes
  | .step sink m taken => utf8 (written (taken.course (placed s sink m) s.rig).deeds)
  | .share _ _ | .clear _ => []

def after (s : Session) (held : List UInt8) : Handling → List UInt8
  | .clear _ => []
  | h => held ++ h.bytes s

def through : List Handling → Session → Session
  | [], s => s
  | h :: hs, s => through hs (h.run s)

def held : List Handling → Session → List UInt8 → List UInt8
  | [], _, kept => kept
  | h :: hs, s, kept => held hs (h.run s) (h.after s kept)

def allNames : List Handling → List String → List String
  | [], known => known
  | h :: hs, known => allNames hs (h.names known)

def Among : List String → List Handling → Prop
  | _, [] => True
  | known, h :: hs => h.sink ∈ known ∧ h.IsOwn ∧ Among (h.names known) hs

theorem held_append (before after : List Handling) (s : Session) (kept : List UInt8) :
    held (before ++ after) s kept = held after (through before s) (held before s kept) := by
  induction before generalizing s kept with
  | nil => rfl
  | cons h before rest => exact rest _ _

theorem after_of_not_isClear {h : Handling} (keeps : ¬ h.IsClear) (s : Session)
    (kept : List UInt8) : h.after s kept = kept ++ h.bytes s := by
  cases h with
  | clear sink => exact absurd True.intro keeps
  | _ => rfl

theorem held_of_unclear {hs : List Handling} (keeps : ∀ h ∈ hs, ¬ h.IsClear) (s : Session)
    (kept : List UInt8) : held hs s kept = kept ++ held hs s [] := by
  induction hs generalizing s kept with
  | nil => exact (List.append_nil kept).symm
  | cons h hs rest =>
    obtain ⟨here, later⟩ := List.forall_mem_cons.mp keeps
    rw [held, held, after_of_not_isClear here, after_of_not_isClear here, rest later,
      rest later _ ([] ++ h.bytes s), List.nil_append, List.append_assoc]

end Handling

/-- All the names stand for the `n`-th outlet, which is healthy and holds some bytes. -/
structure Shared (n : Nat) (known : List String) (held : List UInt8) (s : Session) : Prop where
  names : ∀ name ∈ known, Keyed.get? name s.sinks = some n
  keeps : s.rig.Keeps n held

namespace Shared

variable {s : Session} {n : Nat} {known : List String} {held : List UInt8}

theorem makeSink (s : Session) (first : String) :
    Shared s.rig.outlets.size [first] [] ((run (.makeSink first .empty)).run s).2 where
  names := by
    intro name member
    rw [List.mem_singleton.mp member, run_makeSink]
    exact (Keyed.get?_insert ..).trans (if_pos rfl)
  keeps := Rig.Keeps.addOutlet s.rig

theorem handled (shared : Shared n known held s) {h : Handling} (among : h.sink ∈ known)
    (own : h.IsOwn) : Shared n (h.names known) (h.after s held) (h.run s) := by
  have place := shared.names _ among
  cases h with
  | share sink name =>
    have here : Keyed.get? sink s.sinks = some n := place
    rw [Handling.run, run_shareSink here]
    refine ⟨?_, shared.keeps.idle⟩
    intro other member
    rw [Keyed.get?_insert]
    rcases List.mem_cons.mp member with rfl | member
    · exact if_pos rfl
    · split
      · rfl
      · exact shared.names other member
  | write sink bytes =>
    have here : Keyed.get? sink s.sinks = some n := place
    rw [Handling.run, run_write here]
    exact ⟨shared.names, shared.keeps.append bytes⟩
  | offer sink bytes =>
    have here : Keyed.get? sink s.sinks = some n := place
    rw [Handling.run, here]
    exact ⟨shared.names, shared.keeps.write bytes⟩
  | clear sink =>
    have here : Keyed.get? sink s.sinks = some n := place
    rw [Handling.run, run_clear here]
    exact ⟨shared.names, shared.keeps.clear⟩
  | step sink m taken =>
    obtain ⟨_, writes⟩ :=
      (Rig.WritesTo.law n).step taken own (Handling.placed s sink m) s.rig place
    exact ⟨shared.names, writes held shared.keeps⟩

theorem through (shared : Shared n known held s) {hs : List Handling}
    (among : Handling.Among known hs) :
    Shared n (Handling.allNames hs known) (Handling.held hs s held) (Handling.through hs s) := by
  induction hs generalizing known held s with
  | nil => exact shared
  | cons h hs rest =>
    obtain ⟨member, own, later⟩ := among
    exact rest (shared.handled member own) later

end Shared

theorem written_report (first second : List (Deed Nat)) (call : Call Nat) :
    written (first ++ .report call :: second) =
      written first ++ ("\r" ++ call.report.text) ++ written second := by
  rw [← List.singleton_append, written_append, written_append, String.append_assoc]
  simp [written, Deed.written]

/-- Whatever is done through its names, every name of an outlet shows the bytes written through all
of them since it was last cleared, their number, and whether there are any. The bytes of a text
decode to it, whatever comes before or after, so each report that was not cleared away can be read
between what was written before it and after. -/
theorem contents_of_shared (s : Session) (first : String) (hs : List Handling)
    (among : Handling.Among [first] hs) :
    let start := ((run (.makeSink first .empty)).run s).2
    let now := Handling.through hs start
    let held := Handling.held hs start []
    (∀ name ∈ Handling.allNames hs [first], (run (.contents name)).run now =
      (.ok (.contents (now.shown (Lossy.decode held))
        (if now.masked then none else some held.length) held.isEmpty), now)) ∧
    (∀ bytes text, Lossy.decode (bytes ++ utf8 text) = Lossy.decode bytes ++ text) ∧
    (∀ text bytes, Lossy.decode (utf8 text ++ bytes) = text ++ Lossy.decode bytes) ∧
    (∀ text, Lossy.decode (utf8 text) = text) ∧
    ∀ before sink m taken after, hs = before ++ .step sink m taken :: after →
      (∀ h ∈ after, ¬ h.IsClear) →
      let earlier := Handling.through before start
      let later := Handling.run earlier (.step sink m taken)
      ∀ (call : Call Nat) (sooner further : List (Deed Nat)),
        (taken.course (Handling.placed earlier sink m) earlier.rig).deeds =
          sooner ++ .report call :: further →
        Lossy.decode held = Lossy.decode (Handling.held before start []) ++ written sooner ++
          ("\r" ++ call.report.text) ++ written further ++
          Lossy.decode (Handling.held after later []) := by
  intro start now held
  have shared := (Shared.makeSink s first).through among
  refine ⟨?_, Lossy.decode_before, Lossy.decode_after, Lossy.decode_utf8, ?_⟩
  · intro name member
    have memory := shared.keeps.outlet
    have length := congrArg List.length memory
    have empty := congrArg List.isEmpty memory
    rw [run_contents (shared.names name member), Outlet.contents, memory]
    rw [Array.length_toList] at length
    rw [Array.isEmpty_toList] at empty
    rw [length, empty]
  · intro before sink m taken after whole kept earlier later call sooner further deeds
    have nonempty : written (sooner ++ .report call :: further) ≠ "" := by
      rw [written_report]
      intro empty
      have length := congrArg String.length empty
      simp at length
    have parts : held = Handling.held before start [] ++
        utf8 (written (sooner ++ .report call :: further)) ++ Handling.held after later [] := by
      simp only [held, whole]
      rw [Handling.held_append, Handling.held, Handling.held_of_unclear kept]
      change Handling.held before start [] ++ utf8 (written
        (taken.course (Handling.placed earlier sink m) earlier.rig).deeds) ++ _ = _
      rw [deeds]
    rw [parts, Lossy.decode_around _ _ nonempty, written_report]
    simp only [String.append_assoc]

/-- Bytes that break off within a character before a report, and one that begins none after it. -/
theorem contents_of_shared_broken :
    let m : Meter ClockHandle Nat :=
      (Meter.begin ⟨2, by decide⟩ none (.numbered 0) Rig.empty).1
    let hs : List Handling := [.share "a" "b", .write "b" [0x41], .clear "a",
      .write "a" [0xE2, 0x82], .step "b" m .report, .offer "a" [0xAC]]
    let start := ((run (.makeSink "a" .empty)).run (Session.empty false)).2
    let now := Handling.through hs start
    let held := Handling.held hs start []
    Handling.Among ["a"] hs ∧
    (run (.contents "b")).run now =
      (.ok (.contents (Lossy.decode held) (some held.length) held.isEmpty), now) ∧
    ∃ r : Report, Lossy.decode held = "\uFFFD" ++ ("\r" ++ r.text) ++ "\uFFFD" := by
  intro m hs start now held
  have among : Handling.Among ["a"] hs := by
    simp [hs, Handling.Among, Handling.sink, Handling.names, Handling.IsOwn, Step.IsOwn]
  obtain ⟨shown, _, _, _, reported⟩ := contents_of_shared (Session.empty false) "a" hs among
  have plain : now.masked = false := rfl
  have other := shown "b" (by simp [hs, Handling.allNames, Handling.names])
  change (run (.contents "b")).run now = (.ok (.contents (now.shown (Lossy.decode held))
    (if now.masked then none else some held.length) held.isEmpty), now) at other
  simp only [Session.shown, plain, Bool.false_eq_true, if_false] at other
  refine ⟨among, other, ?_⟩
  have kept : ∀ h ∈ [Handling.offer "a" [0xAC]], ¬ h.IsClear := by
    rintro h member
    rw [List.mem_singleton.mp member]
    exact id
  have between := reported [.share "a" "b", .write "b" [0x41], .clear "a",
    .write "a" [0xE2, 0x82]] "b" m .report _ rfl kept _ [] [] rfl
  change Lossy.decode held = Lossy.decode [0xE2, 0x82] ++ "" ++ _ ++ "" ++ Lossy.decode [0xAC]
    at between
  rw [String.append_empty, String.append_empty] at between
  exact ⟨_, between⟩

end Cadence.Session
