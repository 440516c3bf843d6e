import Cadence.Feed.Tap
import Cadence.Proofs.Emission.Parted
import Cadence.Proofs.Feed.Counting
import Cadence.Proofs.Meter.Passage
import Cadence.Session.Script

namespace Cadence

variable {ι σ κ δ α β γ : Type}

section

variable [Source ι σ α] [Surroundings σ κ δ]

theorem Tap.counts : Counts (Tap.mk : ι → Meter κ δ → Tap ι κ δ) Meter.increment where
  next source m s := by
    change Tap.next ⟨source, m⟩ s = _
    rw [Tap.next]
    generalize Source.next source s = answer
    obtain ⟨result, source', s'⟩ := answer
    rcases result with c | _ | item
    · rfl
    · rfl
    · simp only
      generalize m.increment s' = counted
      obtain ⟨result, m', s''⟩ := counted
      cases result <;> rfl
  hint _ _ := rfl

def Meter.incrementBoth (meters : Meter κ δ × Meter κ δ) (s : σ) :
    Attempt Unit × (Meter κ δ × Meter κ δ) × σ :=
  match meters.1.increment s with
  | (.ok _, inner, s) =>
    ((meters.2.increment s).1, (inner, (meters.2.increment s).2.1), (meters.2.increment s).2.2)
  | (.error c, inner, s) => (.error c, (inner, meters.2), s)

def Tap.ofBoth (source : ι) (meters : Meter κ δ × Meter κ δ) : Tap (Tap ι κ δ) κ δ :=
  ⟨⟨source, meters.1⟩, meters.2⟩

theorem Tap.counts_both :
    Counts (Tap.ofBoth : ι → Meter κ δ × Meter κ δ → Tap (Tap ι κ δ) κ δ) Meter.incrementBoth where
  next source meters s := by
    have outer := Tap.counts.next (Tap.mk source meters.1) meters.2 s
    rw [Tap.counts.next source meters.1 s] at outer
    refine outer.trans ?_
    generalize Source.next source s = answer
    obtain ⟨result, source', s₁⟩ := answer
    rcases result with c | _ | item
    · rfl
    · rfl
    · simp only [Meter.incrementBoth]
      generalize meters.1.increment s₁ = counted
      obtain ⟨result, inner, s₂⟩ := counted
      cases result with
      | error c => rfl
      | ok a =>
        simp only
        generalize meters.2.increment s₂ = counted
        obtain ⟨result, outer, s₃⟩ := counted
        cases result <;> rfl
  hint _ _ := rfl

namespace Meter

theorem increment_frame (m : Meter κ δ) (s : σ) :
    ∃ count last reports, (m.increment s).2.1 = { m with count, last, reports } := by
  rw [← m.incrementing_outcome]
  exact (m.incrementing_passage s).frame

theorem increment_count {m m' : Meter κ δ} {s s' : σ} {a : Unit}
    (ok : m.increment s = (.ok a, m', s')) : m'.count.toNat = m.count.toNat + 1 := by
  rw [increment] at ok
  split at ok
  · cases ok
  · rename_i room
    have next := Count.toNat_succ m.count room
    simp only at ok
    split at ok
    · obtain ⟨last, reports, frame⟩ := report_frame { m with count := m.count + 1 } s
      generalize { m with count := m.count + 1 }.report s = reported at ok frame
      obtain ⟨result, m₁, s₁⟩ := reported
      cases result with
      | error c => cases ok
      | ok r =>
        cases ok
        exact (congrArg (·.count.toNat) frame).trans next
    · cases ok
      exact next

end Meter

namespace Meter

theorem increment_finished (m : Meter κ δ) (s : σ) :
    (m.increment s).2.1.finished = m.finished := by
  obtain ⟨_, _, _, frame⟩ := m.increment_frame s
  rw [frame]

theorem incrementBoth_finished (meters : Meter κ δ × Meter κ δ) (s : σ) :
    ((incrementBoth meters s).2.1.1.finished, (incrementBoth meters s).2.1.2.finished) =
      (meters.1.finished, meters.2.finished) := by
  have inner := meters.1.increment_finished s
  rw [incrementBoth]
  generalize meters.1.increment s = done at inner ⊢
  obtain ⟨result, m', s'⟩ := done
  cases result with
  | error c => rw [inner]
  | ok a => exact congrArg₂ Prod.mk inner (meters.2.increment_finished s')

theorem incrementBoth_count {meters meters' : Meter κ δ × Meter κ δ} {s s' : σ} {a : Unit}
    (ok : incrementBoth meters s = (.ok a, meters', s')) :
    meters'.1.count.toNat = meters.1.count.toNat + 1 ∧
      meters'.2.count.toNat = meters.2.count.toNat + 1 := by
  rw [incrementBoth] at ok
  cases first : meters.1.increment s with
  | mk result after =>
  obtain ⟨m', s₁⟩ := after
  rw [first] at ok
  cases result with
  | error c => cases ok
  | ok a =>
    cases second : meters.2.increment s₁ with
    | mk result after =>
    simp only [second] at ok
    cases ok
    exact ⟨increment_count first, increment_count second⟩

end Meter

structure Unseen (alike : σ → σ → Prop) (clock : κ) (destination : Option δ) : Prop where
  read : ∀ s s', alike (Surroundings.read clock s).2 s' ↔ alike s s'
  write : ∀ bytes s s', alike (Surroundings.write destination bytes s).2 s' ↔ alike s s'
  flush : ∀ s s', alike (Surroundings.flush destination s).2 s' ↔ alike s s'
  log : ∀ e s s', alike (Surroundings.log e s) s' ↔ alike s s'

namespace Unseen

variable {alike : σ → σ → Prop} {m : Meter κ δ}

theorem report (unseen : Unseen alike m.clock m.destination) (s s' : σ) :
    alike (m.report s).2.2 s' ↔ alike s s' := by
  have line : alike (m.line s).2 s' ↔ alike s s' := by
    rw [Meter.line, emit_view (alike · s') (fun bytes s => propext (unseen.write bytes s s'))
      (fun s => propext (unseen.flush s s'))]
    exact (unseen.log _ _ s').trans (unseen.read s s')
  rw [m.report_surroundings]
  generalize m.line s = emission at line
  obtain ⟨delivery, after⟩ := emission
  cases delivery with
  | failed fault => exact (unseen.log _ _ s').trans line
  | _ => exact line

theorem increment (unseen : Unseen alike m.clock m.destination) (s s' : σ) :
    alike (m.increment s).2.2 s' ↔ alike s s' := by
  rw [Meter.increment]
  split
  · rfl
  · simp only
    split
    · have reported := report (m := { m with count := m.count + 1 }) unseen s s'
      generalize { m with count := m.count + 1 }.report s = outcome at reported
      obtain ⟨result, m', after⟩ := outcome
      cases result <;> exact reported
    · rfl

/-- A meter keeps to its clock and its destination, so all it counts is unseen. -/
theorem increment_fit {m' : Meter κ δ} {s s' : σ} (unseen : Unseen alike m.clock m.destination)
    (fit : m'.clock = m.clock ∧ m'.destination = m.destination) :
    ((m'.increment s).2.1.clock = m.clock ∧ (m'.increment s).2.1.destination = m.destination) ∧
      (alike (m'.increment s).2.2 s' ↔ alike s s') := by
  obtain ⟨clock, destination⟩ := fit
  rw [← clock, ← destination] at unseen
  obtain ⟨_, _, _, frame⟩ := m'.increment_frame s
  refine ⟨?_, unseen.increment s s'⟩
  rw [frame]
  exact ⟨clock, destination⟩

end Unseen

/-- Whatever an errand does with a tapped source, it comes to what it does with the bare one while
someone counts by hand, to the same result and in the same surroundings. The meter is left open and
counts each item supplied, and of two meters on one source the inner counts first. A consumer that
only makes requests comes to the same in this way. Where surroundings are alike whatever the meter
does, the tap supplies what the bare source does, up to the first count that crashes. -/
theorem run_tapped (e : Errand γ σ α β) (p : Pulls α β) (source : ι) (m outer : Meter κ δ) (g : γ)
    (s : σ) :
    let tapped := e.run (Tap.mk source m) g s
    let byHand := (e.counted Meter.increment).run source (m, g) s
    let doubly := e.run (Tap.mk (Tap.mk source m) outer) g s
    let bothByHand := (e.counted Meter.incrementBoth).run source ((m, outer), g) s
    let pulled := p.run (Tap.mk source m) s
    let pulledByHand := ((Errand.ofPulls p).counted Meter.increment).run source (m, ()) s
    tapped = (byHand.1, ⟨byHand.2.1, byHand.2.2.1.1⟩, byHand.2.2.1.2, byHand.2.2.2) ∧
      byHand.2.2.1.1.finished = m.finished ∧
      (∀ b, byHand.1 = .ok b → byHand.2.2.1.1.count.toNat =
        m.count.toNat + (e.supplies (Tap.mk source m) g s).countP Supply.isItem) ∧
      doubly = (bothByHand.1, ⟨⟨bothByHand.2.1, bothByHand.2.2.1.1.1⟩, bothByHand.2.2.1.1.2⟩,
        bothByHand.2.2.1.2, bothByHand.2.2.2) ∧
      bothByHand.2.2.1.1.1.finished = m.finished ∧
      bothByHand.2.2.1.1.2.finished = outer.finished ∧
      (∀ b, bothByHand.1 = .ok b →
        let items := (e.supplies (Tap.mk (Tap.mk source m) outer) g s).countP Supply.isItem
        bothByHand.2.2.1.1.1.count.toNat = m.count.toNat + items ∧
          bothByHand.2.2.1.1.2.count.toNat = outer.count.toNat + items) ∧
      pulled = (pulledByHand.1, ⟨pulledByHand.2.1, pulledByHand.2.2.1.1⟩, pulledByHand.2.2.2) ∧
      ∀ alike : σ → σ → Prop, Source.Respects ι alike → Unseen alike m.clock m.destination →
        e.Respects alike → ∀ s', alike s s' →
        let bare := e.run source g s'
        e.supplies (Tap.mk source m) g s <+: e.supplies source g s' ∧
          ((∃ (m' : Meter κ δ) (s : σ) (c : Crash),
              (m'.increment s).1 = .error c ∧ tapped.1 = .error c) ∨
            e.supplies (Tap.mk source m) g s = e.supplies source g s' ∧ tapped.1 = bare.1 ∧
              tapped.2.1.source = bare.2.1 ∧ tapped.2.2.1 = bare.2.2.1 ∧
              alike tapped.2.2.2 bare.2.2.2) := by
  have byHand := Tap.counts.run e source m g s
  have both := Tap.counts_both.run e source (m, outer) g s
  have finished := e.counted_keep Meter.finished Meter.increment_finished source m g s
  have bothFinished := Prod.mk.inj
    (e.counted_keep (fun meters : Meter κ δ × Meter κ δ => (meters.1.finished, meters.2.finished))
      Meter.incrementBoth_finished source (m, outer) g s)
  have pulled := Tap.counts.run (Errand.ofPulls p) source m () s
  rw [Errand.run_ofPulls] at pulled
  refine ⟨byHand, finished, ?counted, both, bothFinished.1, bothFinished.2, ?bothCounted, ?pulled,
    ?bare⟩
  case counted =>
    intro b ended
    exact Tap.counts.supplied (·.count.toNat) Meter.increment_count e source m g s
      ended
  case bothCounted =>
    intro b ended
    constructor
    · exact Tap.counts_both.supplied (·.1.count.toNat)
        (fun ok => (Meter.incrementBoth_count ok).1) e source (m, outer) g s ended
    · exact Tap.counts_both.supplied (·.2.count.toNat)
        (fun ok => (Meter.incrementBoth_count ok).2) e source (m, outer) g s ended
  case pulled =>
    exact Prod.ext (congrArg (·.1) pulled)
      (Prod.ext (congrArg (·.2.1) pulled) (congrArg (·.2.2.2) pulled))
  case bare =>
    intro alike respects unseen respectful s' same
    obtain ⟨front, outcome⟩ := Tap.counts.as_bare respects
      (fun m' => m'.clock = m.clock ∧ m'.destination = m.destination)
      (fun _ _ _ => unseen.increment_fit) e respectful source m g s s' ⟨rfl, rfl⟩ same
    refine ⟨front, outcome.imp_right ?_⟩
    rintro ⟨supplies, result, ⟨m', joined⟩, rest⟩
    exact ⟨supplies, result, congrArg Tap.source joined, rest⟩

end

namespace Session

def Rig.SameClocks (k : Nat) (rig rig' : Rig) : Prop :=
  rig.clocks = rig'.clocks ∧ ∃ now, rig.clocks[k]? = some (.manual now)

theorem Rig.read_sameClocks (k : Nat) (rig rig' : Rig) :
    (Rig.read (.numbered k) rig).2.SameClocks k rig' ↔ rig.SameClocks k rig' := by
  by_cases inside : k < rig.clocks.size
  · have here : rig.clock (.numbered k) = rig.clocks[k] := by
      simp [Rig.clock, Array.getD_eq_getD_getElem?, inside]
    simp only [Rig.read, here, Rig.SameClocks, Rig.setClock]
    cases shown : rig.clocks[k] with
    | manual now =>
      have same : rig.clocks.setIfInBounds k (.manual now) = rig.clocks := by
        grind
      rw [Clock.read, same]
    -- a scripted clock stays one, so the rigs are alike neither before nor after
    | scripted now step => simp [Clock.read, inside, shown]
  · have same : (Rig.read (.numbered k) rig).2 = rig := by
      simp [Rig.read, Rig.setClock, Array.setIfInBounds, inside]
    rw [same]

theorem Rig.sameClocks_unseen (k : Nat) (destination : Option Nat) :
    Unseen (Rig.SameClocks k) (.numbered k) destination where
  read := Rig.read_sameClocks k
  write bytes s s' := by cases destination <;> rfl
  flush s s' := by cases destination <;> rfl
  log e s s' := Iff.rfl

theorem Rig.SameClocks.advance {k : Nat} {rig rig' : Rig} (same : rig.SameClocks k rig')
    (h : ClockHandle) (d : Span) :
    (rig.advance h d).1 = (rig'.advance h d).1 ∧
      (rig.advance h d).2.SameClocks k (rig'.advance h d).2 := by
  obtain ⟨clocks, now, manual⟩ := same
  have shown : rig.clock h = rig'.clock h := by
    cases h with
    | process => rfl
    | numbered n => rw [Rig.clock, Rig.clock, clocks]
  rw [Rig.advance, Rig.advance, ← shown]
  cases moved : (rig.clock h).advance d with
  | error c => exact ⟨rfl, clocks, now, manual⟩
  | ok c =>
    refine ⟨rfl, ?_⟩
    cases h with
    | process => exact ⟨clocks, now, manual⟩
    | numbered n =>
      refine ⟨congrArg (·.setIfInBounds n c) clocks, ?_⟩
      simp only [Rig.setClock, Array.getElem?_setIfInBounds]
      by_cases own : n = k
      · subst own
        rw [Rig.clock_numbered manual, Clock.advance] at moved
        obtain ⟨inside, _⟩ := Array.getElem?_eq_some_iff.mp manual
        cases later : now.plus? d with
        | none => simp [later] at moved
        | some later' =>
          simp only [later, Except.ok.injEq] at moved
          exact ⟨later', by simp [inside, moved]⟩
      · exact ⟨now, by rw [if_neg own, manual]⟩

theorem Script.respects (k : Nat) : Source.Respects Script (Rig.SameClocks k) := by
  rintro ⟨cues, hint⟩ rig rig' same
  change (Script.next hint cues rig).1 = (Script.next hint cues rig').1 ∧
    (Script.next hint cues rig).2.1 = (Script.next hint cues rig').2.1 ∧
    (Script.next hint cues rig).2.2.SameClocks k (Script.next hint cues rig').2.2
  induction cues generalizing rig rig' with
  | nil => exact ⟨rfl, rfl, same⟩
  | cons cue cues rest =>
    cases cue with
    | advance clock d =>
      obtain ⟨result, after⟩ := same.advance clock d
      simp only [Script.next]
      generalize rig.advance clock d = moved, rig'.advance clock d = moved' at result after ⊢
      obtain ⟨r, rig₁⟩ := moved
      obtain ⟨r', rig₁'⟩ := moved'
      simp only at result after
      subst result
      cases r with
      | error c => exact ⟨rfl, rfl, after⟩
      | ok a => exact rest rig₁ rig₁' after
    | _ => exact ⟨rfl, rfl, same⟩

/-- Two items with a gap and an advance between them, drawn through a tap that reads the clock. -/
theorem run_tapped_script :
    let script : Script :=
      ⟨[.item .null, .gap, .advance (.numbered 0) ⟨5⟩, .item .null], none⟩
    let rig : Rig := { Rig.empty with clocks := #[.manual Rig.origin] }
    let m := (Meter.begin ⟨4, by decide⟩ none (.numbered 0) rig).1
    let e : Errand Unit Rig Json Nat :=
      Errand.ofPulls (.next fun _ => .next fun _ => .next fun _ => .hint fun h => .done h.least)
    let tapped := e.run (Tap.mk script m) () rig
    Source.Respects Script (Rig.SameClocks 0) ∧
      Unseen (Rig.SameClocks 0) m.clock m.destination ∧ e.Respects (Rig.SameClocks 0) ∧
      rig.SameClocks 0 rig ∧ tapped.2.1.meter.count.toNat = 2 ∧
      e.supplies (Tap.mk script m) () rig = e.supplies script () rig ∧
      tapped.1 = (e.run script () rig).1 := by
  intro script rig m e tapped
  have same : rig.SameClocks 0 rig := ⟨rfl, Rig.origin, rfl⟩
  have respectful : e.Respects (Rig.SameClocks 0) := Errand.ofPulls_respects _ _
  obtain ⟨byHand, _, counted, _, _, _, _, _, bare⟩ :=
    run_tapped e (.done 0) script m m () rig
  have ended : ((e.counted Meter.increment).run script (m, ()) rig).1 = .ok 0 := by
    decide +kernel
  have two := counted _ ended
  refine ⟨Script.respects 0, Rig.sameClocks_unseen 0 none, respectful, same, ?_, ?_⟩
  · rw [show tapped = _ from byHand]
    exact two
  · obtain ⟨_, ⟨_, _, _, _, crashed⟩ | ⟨supplies, result, _⟩⟩ :=
      bare _ (Script.respects 0) (Rig.sameClocks_unseen 0 none) respectful rig same
    · rw [byHand, ended] at crashed
      cases crashed
    · exact ⟨supplies, result⟩

end Session

end Cadence
