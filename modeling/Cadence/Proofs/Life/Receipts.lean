import Cadence.Proofs.Life.Contents
import Cadence.Proofs.Life.Minutes

namespace Cadence

open Meter (doneMarker)

variable {σ τ κ δ : Type}

def Deed.destination : Deed δ → Option δ
  | .report call => call.destination
  | .mark destination _ => destination

def Placed (before : Meter κ δ × σ) (deeds : List (Deed δ)) (after : Meter κ δ × σ) : Prop :=
  after.1.destination = before.1.destination ∧
    ∀ deed ∈ deeds, deed.destination = before.1.destination

theorem Placed.law [Surroundings σ κ δ] : Law (Placed (σ := σ) (κ := κ) (δ := δ)) where
  stay _ := ⟨rfl, List.forall_mem_nil _⟩
  trans := by
    rintro before mid after first second ⟨same, here⟩ ⟨same', there⟩
    rw [same] at same' there
    exact ⟨same', List.forall_mem_append.mpr ⟨here, there⟩⟩
  count _ _ _ := ⟨rfl, List.forall_mem_nil _⟩
  report occasion m s := by
    refine ⟨?_, List.forall_mem_singleton.mpr rfl⟩
    obtain ⟨last, reports, frame⟩ := m.report_frame s
    rw [frame]
  mark r m s _ := by
    refine ⟨?_, List.forall_mem_singleton.mpr rfl⟩
    rcases m.marking_cases r s with ⟨crash, _, ended⟩ | ⟨_, ended⟩
    · rw [ended]
    · rw [ended]

/-- A step writes where the meter writes when it is taken, and nowhere else. -/
theorem Step.course_destination [Surroundings σ κ δ] (step : Step σ δ) (m : Meter κ δ) (s : σ) :
    ∀ deed ∈ (step.course m s).deeds, deed.destination = m.destination := by
  rcases step.own_or_other with own | ⟨destination, rfl⟩ | ⟨change, rfl⟩
  · exact (Placed.law.step step own m s).2
  · exact List.forall_mem_nil _
  · exact List.forall_mem_nil _

def received [DecidableEq δ] (d : Option δ) (minutes : List (Dealing κ δ)) : List UInt8 :=
  taken (minutes.filter (·.IsWith d))

section

variable {place d : Option δ} {bytes : List UInt8} {dealings : List (Dealing κ δ)}

theorem Emission.taken_done (emission : Emission place bytes .done dealings) :
    taken dealings = bytes := by
  cases emission with
  | whole offered =>
    rw [taken_append, offered.whole.mpr rfl]
    exact List.append_nil bytes
  | part offered unfinished => exact absurd rfl unfinished

variable [DecidableEq δ]

theorem received_append (first second : List (Dealing κ δ)) :
    received d (first ++ second) = received d first ++ received d second := by
  rw [received, List.filter_append, taken_append]
  rfl

theorem Emission.received_done (emission : Emission place bytes .done dealings) :
    received d dealings = if place = d then bytes else [] := by
  by_cases here : place = d
  · subst here
    have all : dealings.filter (·.IsWith place) = dealings :=
      List.filter_eq_self.mpr fun dealing member => decide_eq_true (emission.isWith dealing member)
    rw [received, all, if_pos rfl, emission.taken_done]
  · have none : dealings.filter (·.IsWith d) = [] := by
      rw [List.filter_eq_nil_iff]
      intro dealing member elsewhere
      have there := emission.isWith dealing member
      have elsewhere := of_decide_eq_true elsewhere
      cases dealing with
      | write destination part reply => exact here (there.symm.trans elsewhere)
      | flush destination delivery => exact here (there.symm.trans elsewhere)
      | read clock now => exact there
      | log e => exact there
    rw [received, none, if_neg here]
    rfl

variable (minutes : List (Dealing κ δ)) (clock : κ) (now : Instant) (e : Event)

theorem received_read : received d (.read clock now :: minutes) = received d minutes := by
  rw [received, List.filter_cons_of_neg]
  · rfl
  · exact of_decide_eq_false rfl

theorem received_log : received d (.log e :: minutes) = received d minutes := by
  rw [received, List.filter_cons_of_neg]
  · rfl
  · exact of_decide_eq_false rfl

end

variable [DecidableEq δ]

/-- What was made at each destination went there, and what was made at all went somewhere. -/
structure Receives (before : Meter κ δ × Minuted σ κ δ) (deeds : List (Deed δ))
    (after : Meter κ δ × Minuted σ κ δ) : Prop where
  all : taken after.2.minutes = taken before.2.minutes ++ utf8 (written deeds)
  each : ∀ d, received d after.2.minutes =
    received d before.2.minutes ++ utf8 (written (deeds.filter (·.destination = d)))

namespace Receives

theorem idle {m m' : Meter κ δ} {s s' : Minuted σ κ δ} (minutes : s'.minutes = s.minutes) :
    Receives (m, s) [] (m', s') where
  all := by
    rw [minutes]
    exact (List.append_nil _).symm
  each d := by
    rw [minutes]
    exact (List.append_nil _).symm

theorem trans {before mid after : Meter κ δ × Minuted σ κ δ} {first second : List (Deed δ)}
    (former : Receives before first mid) (latter : Receives mid second after) :
    Receives before (first ++ second) after where
  all := by
    rw [latter.all, former.all, written_append, utf8_append, List.append_assoc]
  each d := by
    rw [latter.each, former.each, List.filter_append, written_append, utf8_append,
      List.append_assoc]

theorem deed {m m' : Meter κ δ} {s s' : Minuted σ κ δ} {deed : Deed δ}
    (all : taken s'.minutes = taken s.minutes ++ utf8 deed.written)
    (each : ∀ d, received d s'.minutes =
      received d s.minutes ++ if deed.destination = d then utf8 deed.written else []) :
    Receives (m, s) [deed] (m', s') where
  all := by
    rw [all, show written [deed] = deed.written by simp [written]]
  each d := by
    rw [each]
    by_cases here : deed.destination = d
    · simp [here, written]
    · simp [here, written, utf8]

variable [Surroundings σ κ δ]

theorem report (occasion : Occasion) (m : Meter κ δ) (s : Minuted σ κ δ)
    (delivered : (m.line s).1 = .done) :
    Receives (m, s) [.report (m.call occasion s)] (m.report s).2 := by
  obtain ⟨dealings, minutes, emission⟩ := m.report_minutes occasion s
  rw [show (m.call occasion s).delivery = .done from delivered] at minutes emission
  apply deed
  · rw [minutes, taken_append, taken_append, taken_notes, List.append_nil]
    exact congrArg _ emission.taken_done
  · intro d
    rw [minutes, received_append, received_append, received_read, received_log,
      emission.received_done]
    exact congrArg _ (List.append_nil _)

theorem marking (r : Report) (m : Meter κ δ) (s : Minuted σ κ δ)
    (delivered : (emit m.destination [doneMarker] s).1 = .done) :
    Receives (m, s) (m.marking r s).deeds (m.marking r s).outcome.2 := by
  obtain ⟨dealings, emission, ⟨crash, lost, _⟩ | ⟨_, _, minutes⟩⟩ := m.marking_minutes r s
  · cases delivered.symm.trans lost
  · rw [delivered] at minutes emission
    apply deed
    · rw [minutes, taken_append, taken_append, taken_append, taken_notes, List.append_nil]
      exact congrArg _ ((List.append_nil _).trans emission.taken_done)
    · intro d
      rw [minutes, received_append, received_append, received_append, received_log,
        emission.received_done]
      exact congrArg _ ((List.append_nil _).trans (List.append_nil _))

theorem law : Law fun (before : Meter κ δ × Minuted σ κ δ) deeds after =>
    Fitting (· = .done) deeds → Receives before deeds after where
  stay life _ := idle rfl
  trans former latter fitting := by
    obtain ⟨first, second⟩ := List.forall_mem_append.mp fitting
    exact (former first).trans (latter second)
  count m s c _ := idle rfl
  report occasion m s fitting := report occasion m s (fitting _ List.mem_cons_self)
  mark r m s _ fitting := marking r m s (fitting _ List.mem_cons_self)

theorem run (lift : (τ → τ) → Minuted σ κ δ → Minuted σ κ δ)
    (unminuted : ∀ change s, (lift change s).minutes = s.minutes) (steps : List (Step τ δ))
    (life : Meter κ δ × Minuted σ κ δ)
    (fitting : Fitting (· = .done) (Step.journal (steps.map (Step.among lift)) life)) :
    Receives life (Step.journal (steps.map (Step.among lift)) life)
      (Step.through (steps.map (Step.among lift)) life) := by
  apply law.run _ _ steps life fitting
  · exact fun _ _ _ _ => idle rfl
  · exact fun change _ s _ => idle (unminuted change s)

end Receives

theorem received_begin [Surroundings σ κ δ] (interval : Interval)
    (destination : Option δ) (clock : κ) (s : σ) (d : Option δ) :
    let start : _ × Minuted σ κ δ := Meter.begin interval destination clock (Minuted.fresh s)
    received d start.2.minutes = [] :=
  (received_read _ clock _).trans (received_log _ _)

end Cadence
