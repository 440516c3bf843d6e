import Cadence.Proofs.Emission.Parted
import Cadence.Proofs.Life.Closing
import Cadence.Proofs.Life.Minutes
import Cadence.Proofs.Text.Occurrences
import Cadence.Proofs.Text.StatusLine

namespace Cadence

open Meter (doneMarker)

variable {σ κ δ : Type}

def markers (bytes : List UInt8) : Nat := bytes.tails.countP ((utf8 doneMarker).isPrefixOf ·)

def newline : UInt8 := 10

def markerBytes : List UInt8 := [46, 46, 46, 68, 111, 110, 101, 33]

theorem utf8_doneMarker : utf8 doneMarker = markerBytes ++ [newline] := by decide

theorem markers_le_count (bytes : List UInt8) : markers bytes ≤ bytes.count newline := by
  rw [markers, utf8_doneMarker]
  exact countP_isPrefixOf_le_count markerBytes newline bytes

theorem markers_append (first second : List UInt8) :
    markers first + markers second ≤ markers (first ++ second) :=
  countP_isPrefixOf_append (show utf8 doneMarker ≠ [] by decide) first second

theorem count_newline_line (r : Report) : (utf8 ("\r" ++ r.text)).count newline = 0 := by
  rw [List.count_eq_zero, utf8, List.mem_flatMap]
  rintro ⟨c, member, here⟩
  have within : c ∈ '\r' :: Report.lineChars := by
    rw [String.toList_append, List.mem_append] at member
    rcases member with member | member
    · exact List.mem_cons.mpr (.inl (List.mem_singleton.mp member))
    · exact List.mem_cons_of_mem _ (r.text_subset member)
  have newlineless : (('\r' :: Report.lineChars).all
      fun c => !(String.utf8EncodeChar c).elem newline) = true := rfl
  have none := List.all_eq_true.mp newlineless c within
  rw [List.elem_eq_true_of_mem here] at none
  cases none

def Dealing.isCrashedFlush : Dealing κ δ → Bool
  | .flush _ (.crashed _) => true
  | _ => false

/-- How many flushes crashed right after the marker was taken, if certain bytes were taken before
these dealings. -/
def lostFlushes (before : List UInt8) : List (Dealing κ δ) → Nat
  | [] => 0
  | dealing :: rest =>
    (if dealing.isCrashedFlush ∧ utf8 doneMarker <:+ before then 1 else 0) +
      lostFlushes (before ++ dealing.taken) rest

theorem lostFlushes_append (before : List UInt8) (first second : List (Dealing κ δ)) :
    lostFlushes before (first ++ second) =
      lostFlushes before first + lostFlushes (before ++ taken first) second := by
  induction first generalizing before with
  | nil => simp [lostFlushes, taken]
  | cons dealing first rest =>
    rw [List.cons_append, lostFlushes, lostFlushes, rest, Nat.add_assoc, List.append_assoc]
    rfl

def Sparing (before after : Meter κ δ × Minuted σ κ δ) : Prop :=
  (taken after.2.minutes).count newline + lostFlushes [] before.2.minutes +
      (if before.1.finished then 1 else 0) ≤
    (taken before.2.minutes).count newline + lostFlushes [] after.2.minutes +
      (if after.1.finished then 1 else 0)

namespace Sparing

theorem trans {before mid after : Meter κ δ × Minuted σ κ δ} (former : Sparing before mid)
    (latter : Sparing mid after) : Sparing before after := by
  unfold Sparing at *
  omega

/-- What adds dealings to the minutes without a newline spares the marker. -/
theorem idle {m m' : Meter κ δ} {s s' : Minuted σ κ δ} {dealings : List (Dealing κ δ)}
    (minutes : s'.minutes = s.minutes ++ dealings) (quiet : (taken dealings).count newline = 0)
    (finished : m.finished = true → m'.finished = true) : Sparing (m, s) (m', s') := by
  have before : (if m.finished then 1 else 0) ≤ if m'.finished then 1 else 0 := by
    by_cases shut : m.finished = true
    · rw [if_pos shut, if_pos (finished shut)]
    · rw [if_neg shut]
      exact Nat.zero_le _
  simp only [Sparing, minutes, taken_append, List.count_append, lostFlushes_append, quiet]
  omega

/-- The marker finishes the meter, unless it is not taken whole or the flush after it crashes. -/
theorem emission {m m' : Meter κ δ} {s s' : Minuted σ κ δ} {delivery : Delivery}
    {dealings after : List (Dealing κ δ)} (going : m.finished = false)
    (emission : Emission m.destination (utf8 doneMarker) delivery dealings)
    (minutes : s'.minutes = s.minutes ++ (dealings ++ after)) (quiet : taken after = [])
    (finished : (∃ crash, delivery = .crashed crash) ∨ m'.finished = true) :
    Sparing (m, s) (m', s') := by
  cases emission with
  | whole offered =>
    rename_i offers
    have all : taken offers = utf8 doneMarker := offered.whole.mpr rfl
    have flushless : taken [(.flush m.destination delivery : Dealing κ δ)] = [] := rfl
    have once : (taken s'.minutes).count newline = (taken s.minutes).count newline + 1 := by
      rw [minutes, taken_append, taken_append, taken_append, all, flushless, quiet,
        List.append_nil, List.append_nil, List.count_append]
      rfl
    -- one newline more is made up for by a lost flush or by the end of the meter
    rcases finished with ⟨crash, rfl⟩ | shut
    · have last : lostFlushes (taken s.minutes ++ utf8 doneMarker)
          [(.flush m.destination (.crashed crash) : Dealing κ δ)] = 1 := by
        simp [lostFlushes, Dealing.isCrashedFlush]
      have lost : lostFlushes [] s.minutes + 1 ≤ lostFlushes [] s'.minutes := by
        rw [minutes, lostFlushes_append, lostFlushes_append, lostFlushes_append, List.nil_append,
          all, last]
        omega
      simp only [Sparing, once, going, Bool.false_eq_true, if_false]
      omega
    · have lost : lostFlushes [] s.minutes ≤ lostFlushes [] s'.minutes := by
        rw [minutes, lostFlushes_append]
        exact Nat.le_add_right _ _
      simp only [Sparing, once, going, shut, Bool.false_eq_true, if_false, if_true]
      omega
  | part offered unfinished =>
    -- the newline is the last byte of the marker, so it was not among those taken
    have partly : taken dealings <+: markerBytes := by
      have front := offered.front
      rw [utf8_doneMarker, List.prefix_concat_iff] at front
      refine front.resolve_left fun whole => unfinished (offered.whole.mp ?_)
      rw [whole, utf8_doneMarker]
    have none : newline ∉ taken dealings := fun member =>
      absurd (partly.subset member) (by decide)
    refine idle minutes ?_ (by simp [going])
    rw [taken_append, quiet, List.append_nil, List.count_eq_zero.mpr none]

variable [Surroundings σ κ δ]

theorem law : Law fun (before : Meter κ δ × Minuted σ κ δ) _ after => Sparing before after where
  stay life := Nat.le_refl _
  trans := trans
  count m s c := Nat.le_refl _
  report occasion m s := by
    obtain ⟨dealings, minutes, emission⟩ := m.report_minutes occasion s
    refine idle minutes ?_ ?_
    · have front := emission.front.sublist.count_le newline
      rw [count_newline_line, Nat.le_zero] at front
      have all : taken (.read m.clock (m.call occasion s).now ::
          .log (.progress (m.call occasion s).report.count (m.call occasion s).report.rate) ::
            dealings ++ notes .reportFailed (m.call occasion s).delivery) =
          taken dealings ++ taken (notes .reportFailed (m.call occasion s).delivery) :=
        taken_append dealings _
      rw [all, taken_notes, List.append_nil, front]
    · obtain ⟨last, reports, frame⟩ := m.report_frame s
      rw [frame]
      exact id
  mark r m s going := by
    obtain ⟨dealings, marker, ⟨crash, lost, same, minutes⟩ | ⟨_, same, minutes⟩⟩ :=
      m.marking_minutes r s
    · have nothing : (m.marking r s).outcome.2.2.minutes = s.minutes ++ (dealings ++ []) := by
        rw [minutes, List.append_nil]
      exact emission going marker nothing rfl (.inl ⟨crash, lost⟩)
    · rw [List.append_assoc] at minutes
      refine emission going marker minutes ?_ (.inr (by rw [same]))
      rw [taken_append, taken_notes]
      rfl

end Sparing

theorem Sparing.markers {m : Meter κ δ} {s : Minuted σ κ δ} {start : Meter κ δ × Minuted σ κ δ}
    (sparing : Sparing start (m, s)) (going : start.1.finished = false)
    (untaken : taken start.2.minutes = []) :
    markers (taken s.minutes) ≤ (if m.finished then 1 else 0) + lostFlushes [] s.minutes := by
  have bound := markers_le_count (taken s.minutes)
  simp only [Sparing, going, untaken, List.count_nil, Bool.false_eq_true, if_false] at sparing
  omega

/-- A flush that crashes right after the marker was taken leaves the meter unfinished, and the
marker is written again. Apart from that it is taken whole at most once in a life, whoever closes
the meter and whatever else crashes, and not before the meter is finished. -/
theorem markers_of_run [Surroundings σ κ δ] (interval : Interval) (destination : Option δ)
    (clock : κ) (s : σ) (steps : List (Step σ δ)) :
    let start : _ × Minuted σ κ δ := Meter.begin interval destination clock (Minuted.fresh s)
    let m := (Step.through (steps.map Step.minuted) start).1
    let now := (Step.through (steps.map Step.minuted) start).2
    let last := (m.retire now).2
    markers (taken now.minutes) ≤ (if m.finished then 1 else 0) + lostFlushes [] now.minutes ∧
      markers (taken last.minutes) ≤ 1 + lostFlushes [] last.minutes := by
  intro start m now last
  have sparing : Sparing start (m, now) := by
    apply (Sparing.law (σ := σ) (κ := κ) (δ := δ)).run
    · intro m s destination
      exact Nat.le_refl _
    · intro change m s
      exact Nat.le_refl _
  refine ⟨sparing.markers rfl rfl, ?_⟩
  have closed := (sparing.trans (Sparing.law.closing m now)).markers rfl rfl
  rw [m.closing_outcome, ← m.retire_surroundings now] at closed
  exact closed.trans (Nat.add_le_add_right (by split <;> decide) _)

section

variable [Surroundings σ κ δ]

theorem Taking.taken_marking {m : Meter κ δ} (taking : Taking (Minuted σ κ δ) m.destination)
    (r : Report) (s : Minuted σ κ δ) :
    taken (m.marking r s).outcome.2.2.minutes = taken s.minutes ++ utf8 doneMarker := by
  have marker := taking.taken_emit [doneMarker] (s := s)
  rcases m.marking_cases r s with ⟨crash, _, ended⟩ | ⟨_, ended⟩
  · rw [ended]
    exact marker
  · rw [ended, Minuted.minutes_log, Meter.noting_minutes, taken_append, taken_append, taken_notes,
      marker]
    exact (List.append_nil _).trans (List.append_nil _)

/-- Where a text is taken whole, an open meter writes the marker, even if the flush after it
crashes. -/
theorem Taking.markers_closing {m : Meter κ δ} (taking : Taking (Minuted σ κ δ) m.destination)
    {s : Minuted σ κ δ} (going : ¬ m.finished = true) (room : m.reports ≠ Count.greatest)
    (delivered : ∀ crash, (m.line s).1 ≠ .crashed crash) :
    markers (taken s.minutes) + 1 ≤ markers (taken (m.closing s).outcome.2.2.minutes) := by
  obtain ⟨_, ok⟩ := m.report_delivered .closing s room delivered
  obtain ⟨dealings, minutes, _⟩ := m.report_minutes .closing s
  have marked := Taking.taken_marking
    (m := { m with last := (m.call .closing s).now, reports := m.reports + 1 }) taking
    (m.call .closing s).report (Meter.noting .reportFailed (m.line s))
  rw [← m.report_surroundings, minutes, taken_append] at marked
  rw [m.closing_open going, Meter.reporting_andThen_ok _ ok, ← m.report_surroundings, marked]
  have once : markers (utf8 doneMarker) = 1 := by decide
  rw [← once]
  refine (Nat.add_le_add_right ?_ _).trans (markers_append _ _)
  exact (Nat.le_add_right _ _).trans (markers_append _ _)

end

def Writers.crashingOnce : Writers Unit Nat where
  write _ bytes flushes := (.accepted bytes.length, flushes)
  flush _ flushes :=
    (if flushes = 1 then .crashed (.raised "flush panicked") else .done, flushes + 1)
  patience _ _ := 0
  patience_write := by rintro _ _ _ ⟨⟩

namespace Writers.crashingOnce

abbrev Here := Minuted (Parted Clocks.standing Writers.crashingOnce) Unit Unit

theorem taking (d : Option Unit) : Taking Here d := by
  intro bytes s some
  obtain ⟨b, rest, rfl⟩ := List.exists_cons_of_ne_nil some
  exact .inr ⟨rest.length, rfl⟩

theorem emit (d : Option Unit) (pieces : List String) (s : Here) :
    (emit d pieces s).1 =
        (if s.state.ink = 1 then .crashed (.raised "flush panicked") else .done) ∧
      (Cadence.emit d pieces s).2.state.ink = s.state.ink + 1 := by
  have written : (writePieces d pieces s).2.state.ink = s.state.ink :=
    writePieces_view (fun s : Here => s.state.ink) (fun _ _ => rfl) pieces s
  rw [(taking d).emit, ← written]
  exact ⟨rfl, rfl⟩

theorem line (m : Meter Unit Unit) (s : Here) :
    (m.line s).1 =
        (if s.state.ink = 1 then .crashed (.raised "flush panicked") else .done) ∧
      (m.line s).2.state.ink = s.state.ink + 1 :=
  emit _ _ _

/-- The first flush is that of the report, the second that of the marker. -/
theorem close_first (m : Meter Unit Unit) (s : Here) (unused : s.state.ink = 0)
    (going : ¬ m.finished = true) (room : m.reports ≠ Count.greatest) :
    ∃ last s', s'.state.ink = 2 ∧ m.close s =
      (.error (.raised "flush panicked"), { m with last, reports := m.reports + 1 }, s') := by
  have reported := line m s
  rw [unused, if_neg (by decide)] at reported
  obtain ⟨_, ok⟩ := m.report_delivered .closing s room (by simp [reported.1])
  rw [Meter.noting_done _ reported.1] at ok
  have marker := emit m.destination [doneMarker] (m.line s).2
  rw [reported.2, if_pos rfl] at marker
  refine ⟨(m.call .closing s).now, _, marker.2, ?_⟩
  rw [← m.closing_outcome, Meter.closing_open going, Meter.reporting_andThen_ok _ ok]
  rcases Meter.marking_cases (m.call .closing s).report
      { m with last := (m.call .closing s).now, reports := m.reports + 1 } (m.line s).2 with
    ⟨crash, same, ended⟩ | ⟨survives, _⟩
  · cases marker.1.symm.trans same
    exact ended
  · exact absurd marker.1 (survives _)

end Writers.crashingOnce

/-- The flush after the marker crashes, the meter is retired, and the marker is written again. -/
theorem marker_twice :
    let start : Meter Unit Unit × Writers.crashingOnce.Here :=
      Meter.begin ⟨1, by decide⟩ (some ()) () (Minuted.fresh ⟨⟨0⟩, 0⟩)
    let closed := start.1.close start.2
    let last := (closed.2.1.retire closed.2.2).2
    closed.1 = .error (.raised "flush panicked") ∧ 1 ≤ markers (taken closed.2.2.minutes) ∧
      2 ≤ markers (taken last.minutes) := by
  intro start closed last
  have going : ¬ start.1.finished = true := Bool.false_ne_true
  have room : start.1.reports ≠ Count.greatest := by decide
  have delivered : ∀ crash, (start.1.line start.2).1 ≠ .crashed crash := by
    rw [(Writers.crashingOnce.line start.1 start.2).1]
    rintro crash ⟨⟩
  have first := (Writers.crashingOnce.taking (some ())).markers_closing going room delivered
  rw [start.1.closing_outcome] at first
  obtain ⟨time, s', twice, lost⟩ :=
    Writers.crashingOnce.close_first start.1 start.2 rfl going room
  have dropped : last =
      ({ start.1 with last := time, reports := 1 }.closing s').outcome.2.2 := by
    rw [Meter.closing_outcome, ← Meter.retire_surroundings]
    exact congrArg (fun closed => (closed.2.1.retire closed.2.2).2) lost
  have further : (1 : UInt64) ≠ Count.greatest := by decide
  have survives : ∀ crash,
      ({ start.1 with last := time, reports := 1 }.line s').1 ≠ .crashed crash := by
    rw [(Writers.crashingOnce.line _ s').1, twice]
    rintro crash ⟨⟩
  have second := (Writers.crashingOnce.taking (some ())).markers_closing
    (m := { start.1 with last := time, reports := 1 }) going further survives
  rw [← dropped] at second
  have once : 1 ≤ markers (taken s'.minutes) := by
    rw [lost] at first
    exact (Nat.le_add_left 1 _).trans first
  refine ⟨congrArg Prod.fst lost, ?_, (Nat.add_le_add_right once 1).trans second⟩
  rwa [show closed = _ from lost]

end Cadence
