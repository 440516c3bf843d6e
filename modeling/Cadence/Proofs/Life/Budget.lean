import Cadence.Proofs.Emission.Rationing
import Cadence.Proofs.Life.Marker
import Cadence.Proofs.Life.Redirection

namespace Cadence

open Meter (doneMarker)

variable {σ κ τ δ ω ω' : Type} {clocks : Clocks κ τ} {writers : Writers δ ω}
  {writers' : Writers δ ω'}

theorem Writers.Sound.moments_emit (sound : writers.Sound) (d : Option δ) (pieces : List String)
    (s : Minuted (Parted clocks writers) κ δ) :
    moments (Cadence.emit d pieces s).2.minutes =
      moments s.minutes ++ ((utf8 (String.join pieces)).map .byte ++ [.flush]) := by
  obtain ⟨dealings, minutes, emission⟩ := emit_minutes d pieces s
  have done := sound.emit d pieces s
  rw [done] at emission
  rw [minutes, moments_append]
  cases emission with
  | whole offered flushed =>
    rw [moments_append, offered.moments, offered.whole.mpr rfl]
    rfl
  | part offered unfinished => exact absurd rfl unfinished

theorem moments_noting {event : Fault → Event} (warns : ∀ fault, (event fault).level = .warn)
    (emission : Delivery × Minuted (Parted clocks writers) κ δ) :
    moments (Meter.noting event emission).minutes = moments emission.2.minutes := by
  obtain ⟨delivery, s⟩ := emission
  cases delivery with
  | failed fault =>
    have silent : moments [(.log (event fault) : Dealing κ δ)] = [] := by
      simp [moments, Dealing.moments, warns]
    rw [Meter.noting, Minuted.minutes_log, moments_append, silent, List.append_nil]
  | _ => rfl

theorem state_noting (event : Fault → Event)
    (emission : Delivery × Minuted (Parted clocks writers) κ δ) :
    (Meter.noting event emission).state = emission.2.state := by
  obtain ⟨delivery, s⟩ := emission
  cases delivery <;> rfl

structure Trails (budget : Nat) (left : ω → Nat) (s : Minuted (Parted clocks writers) κ δ)
    (s' : Minuted (Parted clocks writers') κ δ) : Prop where
  time : s'.state.time = s.state.time
  shown : moments s.minutes = upTo budget 0 (moments s'.minutes)
  left : left s.state.ink = budget - (taken s'.minutes).length

namespace Trails

variable {budget : Nat} {left : ω → Nat} {d : Option δ}
  {s : Minuted (Parted clocks writers) κ δ} {s' : Minuted (Parted clocks writers') κ δ}

theorem read (trails : Trails budget left s s') (clock : κ) :
    (Surroundings.read clock s').1 = (Surroundings.read clock s).1 ∧
      Trails budget left (Surroundings.read clock s).2 (Surroundings.read clock s').2 := by
  obtain ⟨time, shown, rest⟩ := trails
  have now : clocks.read clock s'.state.time = clocks.read clock s.state.time :=
    congrArg (clocks.read clock) time
  refine ⟨congrArg Prod.fst now, congrArg Prod.snd now, ?_, ?_⟩
  · rw [Minuted.minutes_read, Minuted.minutes_read, moments_append, moments_append, upTo_append,
      shown]
    exact congrArg (fun reading => upTo budget 0 (moments s'.minutes) ++ [.read clock reading.1])
      now.symm
  · rw [Minuted.minutes_read, taken_append, List.length_append]
    exact rest

theorem log (trails : Trails budget left s s') {e : Event} (quiet : e.level ≠ .warn) :
    Trails budget left (Surroundings.log e s) (Surroundings.log e s') := by
  obtain ⟨time, shown, rest⟩ := trails
  refine ⟨time, ?_, ?_⟩
  · rw [Minuted.minutes_log, Minuted.minutes_log, moments_append, moments_append, upTo_append,
      shown]
    simp [moments, Dealing.moments, quiet, upTo]
  · rw [Minuted.minutes_log, taken_append, List.length_append]
    exact rest

theorem emit (trails : Trails budget left s s') (limited : writers.Limited d left)
    (sound : writers'.Sound) {event : Fault → Event} (warns : ∀ fault, (event fault).level = .warn)
    {pieces : List String} (some : utf8 (String.join pieces) ≠ []) :
    Trails budget left (Meter.noting event (Cadence.emit d pieces s))
      (Meter.noting event (Cadence.emit d pieces s')) := by
  obtain ⟨shown, rest, _⟩ := limited.emit pieces s
  have whole := sound.moments_emit d pieces s'
  have length : (taken s'.minutes).length = 0 + (delivered (moments s'.minutes)).length := by
    rw [delivered_moments, Nat.zero_add]
  -- the writer asks what is left, the comparison where the text ends in the whole output
  have covered : (utf8 (String.join pieces)).length ≤ left s.state.ink ↔
      (taken s'.minutes).length + (utf8 (String.join pieces)).length ≤ budget := by
    have positive := List.length_pos_iff.mpr some
    rw [trails.left]
    omega
  constructor
  case time =>
    rw [state_noting, state_noting]
    have time (w : Minuted (Parted clocks writers) κ δ) :
        (Cadence.emit d pieces w).2.state.time = w.state.time :=
      congrArg Prod.fst (aside_emit d pieces)
    have time' (w : Minuted (Parted clocks writers') κ δ) :
        (Cadence.emit d pieces w).2.state.time = w.state.time :=
      congrArg Prod.fst (aside_emit d pieces)
    rw [time, time', trails.time]
  case shown =>
    rw [moments_noting warns, moments_noting warns, shown, whole, upTo_append, ← length, upTo_text,
      trails.shown, ← trails.left]
    simp only [covered]
  case left =>
    have took : taken (Meter.noting event (Cadence.emit d pieces s')).minutes =
        taken s'.minutes ++ utf8 (String.join pieces) := by
      rw [← delivered_moments, moments_noting warns, whole, delivered_append, delivered_moments,
        delivered_append, delivered_bytes]
      exact congrArg (taken s'.minutes ++ ·) (List.append_nil _)
    rw [state_noting, rest, trails.left, took, List.length_append]
    exact Nat.sub_sub _ _ _

end Trails

theorem utf8_return (text : String) : utf8 ("\r" ++ text) ≠ [] := by
  rw [utf8_append]
  exact List.append_ne_nil_of_left_ne_nil (by decide) _

theorem join_report (r : Report) : String.join ("\r" :: r.pieces) = "\r" ++ r.text :=
  String.join_cons

structure Behind (budget : Nat) (left : ω → Nat) (d : Option δ)
    (life : Meter κ δ × Minuted (Parted clocks writers) κ δ)
    (life' : Meter κ δ × Minuted (Parted clocks writers') κ δ) : Prop where
  meter : life'.1 = life.1
  place : life.1.destination = d
  trails : Trails budget left life.2 life'.2

theorem minutes_begin [Surroundings σ κ δ] (interval : Interval) (d : Option δ) (clock : κ)
    (s : σ) :
    (Meter.begin interval d clock (Minuted.fresh s : Minuted σ κ δ)).2.minutes =
      [.read clock (Surroundings.read clock s).1] ++ [.log (.started interval.records d.isNone)] :=
  rfl

theorem moments_begin [Surroundings σ κ δ] (interval : Interval) (d : Option δ) (clock : κ)
    (s : σ) :
    moments (Meter.begin interval d clock (Minuted.fresh s : Minuted σ κ δ)).2.minutes =
      [.read clock (Surroundings.read clock s).1, .log (.started interval.records d.isNone)] := by
  rw [minutes_begin, moments_append, moments_log (by simp [Event.level])]
  rfl

theorem Behind.begin (left : ω → Nat) (interval : Interval) (d : Option δ) (clock : κ) (time : τ)
    (ink : ω) (ink' : ω') :
    Behind (left ink) left d
      (Meter.begin interval d clock (.fresh (⟨time, ink⟩ : Parted clocks writers)))
      (Meter.begin interval d clock (.fresh (⟨time, ink'⟩ : Parted clocks writers'))) := by
  refine ⟨rfl, rfl, rfl, ?_, rfl⟩
  rw [moments_begin, moments_begin]
  rfl

theorem Behind.twins {budget : Nat} {left : ω → Nat} {d : Option δ}
    (limited : writers.Limited d left) (sound : writers'.Sound) :
    Twins (fun _ => True) fun (life : Meter κ δ × Minuted (Parted clocks writers) κ δ)
      (life' : Meter κ δ × Minuted (Parted clocks writers') κ δ) =>
        Behind budget left d life life' where
  same := by
    intro m s m' s' behind
    obtain ⟨rfl, _, _⟩ := behind
    exact ⟨rfl, rfl, rfl⟩
  count := by
    intro m s m' s' behind c
    obtain ⟨rfl, place, trails⟩ := behind
    exact ⟨rfl, place, trails⟩
  report := by
    intro m s m' s' behind occasion _ _
    obtain ⟨rfl, rfl, trails⟩ := behind
    change (m'.report s').1 = (m'.report s).1 ∧
      Behind budget left _ (m'.report s).2 (m'.report s').2
    obtain ⟨now, read⟩ := trails.read m'.clock
    have text := utf8_return (m'.reportAt (Surroundings.read m'.clock s).1).text
    rw [← join_report] at text
    have survives (crash : Crash) : (m'.line s).1 ≠ .crashed crash := (limited.emit _ _).2.2 crash
    have delivered : (m'.line s').1 = .done := sound.emit _ _ _
    have lines : Trails budget left (Meter.noting .reportFailed (m'.line s))
        (Meter.noting .reportFailed (m'.line s')) := by
      simp only [Meter.line, now]
      refine Trails.emit ?_ limited sound (fun _ => rfl) text
      exact read.log (by simp [Event.level])
    rw [Meter.report_survives survives,
      Meter.report_survives (m := m') (s := s') (by simp [delivered]), now]
    refine ⟨rfl, rfl, ?_, lines⟩
    simp only [Meter.settled]
    split <;> rfl
  mark := by
    intro m s m' s' behind r _ _
    obtain ⟨rfl, rfl, trails⟩ := behind
    have marked : Trails budget left
        (Meter.noting .markerFailed (emit m'.destination [doneMarker] s))
        (Meter.noting .markerFailed (emit m'.destination [doneMarker] s')) :=
      trails.emit limited sound (fun _ => rfl) (by decide)
    rcases m'.marking_cases r s with ⟨crash, lost, _⟩ | ⟨_, ended⟩
    · exact absurd lost ((limited.emit _ _).2.2 crash)
    rcases m'.marking_cases r s' with ⟨crash, lost, _⟩ | ⟨_, ended'⟩
    · cases (sound.emit _ _ _).symm.trans lost
    rw [ended, ended']
    exact ⟨rfl, rfl, rfl, marked.log (by simp [Event.level])⟩

theorem Behind.through {budget : Nat} {left : ω → Nat} {d : Option δ}
    (limited : writers.Limited d left) (sound : writers'.Sound) (steps : List (Step τ δ))
    {life : Meter κ δ × Minuted (Parted clocks writers) κ δ}
    {life' : Meter κ δ × Minuted (Parted clocks writers') κ δ}
    (start : Behind budget left d life life') :
    Behind budget left d (Step.through ((Step.staying steps).map Step.passing) life)
      (Step.through ((Step.staying steps).map Step.passing) life') := by
  induction steps generalizing life life' with
  | nil => exact start
  | cons step steps rest =>
    obtain ⟨m, s⟩ := life
    obtain ⟨m', s'⟩ := life'
    rcases step.own_or_other with own | ⟨destination, rfl⟩ | ⟨change, rfl⟩
    · rw [own.staying]
      have agree : Agree (fun _ => True) (Behind budget left d) (step.passing.course m s)
          (step.passing.course m' s') :=
        (Behind.twins limited sound).step step own start
      have after := (agree (fun _ _ => True.intro) fun _ _ => True.intro).2
      rw [Step.course_outcome, Step.course_outcome] at after
      exact rest after
    · exact rest start
    · -- only the time moves on, in both
      refine rest ?_
      obtain ⟨meter, place, time, shown, kept⟩ := start
      exact ⟨meter, place, congrArg change time, shown, kept⟩

def ends (k : Nat) : List (Deed δ) → List Nat
  | [] => []
  | deed :: deeds =>
    (k + (utf8 deed.written).length) :: ends (k + (utf8 deed.written).length) deeds

theorem ends_append (k : Nat) (first second : List (Deed δ)) :
    ends k (first ++ second) = ends k first ++ ends (k + (utf8 (written first)).length) second := by
  induction first generalizing k with
  | nil => rfl
  | cons deed first rest =>
    have whole : written (deed :: first) = deed.written ++ written first := String.join_cons
    rw [whole, utf8_append, List.length_append, ← Nat.add_assoc]
    exact congrArg (_ :: ·) (rest _)

def Served (before : Meter κ δ × Minuted (Parted clocks writers) κ δ) (deeds : List (Deed δ))
    (after : Meter κ δ × Minuted (Parted clocks writers) κ δ) : Prop :=
  ∃ shown, moments after.2.minutes = moments before.2.minutes ++ shown ∧
    delivered shown = utf8 (written deeds) ∧ ∀ k, flushPoints k shown = ends k deeds

namespace Served

theorem idle {m m' : Meter κ δ} {s s' : Minuted (Parted clocks writers) κ δ}
    (minutes : s'.minutes = s.minutes) : Served (m, s) [] (m', s') :=
  ⟨[], by rw [minutes, List.append_nil], rfl, fun _ => rfl⟩

theorem deed {m m' : Meter κ δ} {s s' : Minuted (Parted clocks writers) κ δ} {deed : Deed δ}
    (before after : List (Moment κ)) (shown : moments s'.minutes = moments s.minutes ++
      (before ++ ((utf8 deed.written).map .byte ++ .flush :: after)))
    (early : delivered before = [] ∧ ∀ k, flushPoints k before = [])
    (late : delivered after = [] ∧ ∀ k, flushPoints k after = []) :
    Served (m, s) [deed] (m', s') := by
  have single : written [deed] = deed.written := by simp [written]
  have flushed : delivered (.flush :: after) = [] := late.1
  refine ⟨_, shown, ?_, ?_⟩
  · rw [delivered_append, delivered_append, early.1, delivered_bytes, flushed, single]
    simp
  · intro k
    rw [flushPoints_append, early.2, early.1, flushPoints_append, flushPoints_bytes,
      delivered_bytes, flushPoints, late.2]
    rfl

theorem line (sound : writers.Sound) (m : Meter κ δ) (s : Minuted (Parted clocks writers) κ δ) :
    ∃ before : List (Moment κ), (delivered before = [] ∧ ∀ k, flushPoints k before = []) ∧
      moments (m.line s).2.minutes = moments s.minutes ++ (before ++
        ((utf8 ("\r" ++ (m.reportAt (Surroundings.read m.clock s).1).text)).map .byte ++
          [.flush])) := by
  have emission := sound.moments_emit m.destination
    ("\r" :: (m.reportAt (Surroundings.read m.clock s).1).pieces)
    (Surroundings.log (.progress m.count (m.reportAt (Surroundings.read m.clock s).1).rate)
      (Surroundings.read m.clock s).2)
  rw [Minuted.minutes_log, Minuted.minutes_read, moments_append, moments_append, List.append_assoc,
    List.append_assoc, join_report, ← List.append_assoc (moments [.read _ _])] at emission
  refine ⟨_, ?_, emission⟩
  simp [moments, Dealing.moments, Event.level, delivered, Moment.byte?, flushPoints]

theorem law (sound : writers.Sound) :
    Law fun (before : Meter κ δ × Minuted (Parted clocks writers) κ δ) deeds after =>
      Served before deeds after where
  stay life := idle rfl
  trans := by
    intro before mid after first second former latter
    obtain ⟨shown, moments, bytes, flushes⟩ := former
    obtain ⟨shown', moments', bytes', flushes'⟩ := latter
    refine ⟨shown ++ shown', ?_, ?_, ?_⟩
    · rw [moments', moments, List.append_assoc]
    · rw [delivered_append, bytes, bytes', written_append, utf8_append]
    · intro k
      rw [flushPoints_append, flushes, flushes', bytes, ends_append]
  count m s c := idle rfl
  report occasion m s := by
    obtain ⟨before, quiet, line⟩ := line sound m s
    have after : (m.report s).2.2 = Meter.noting .reportFailed (m.line s) := m.report_surroundings s
    refine deed before [] ?_ quiet ⟨rfl, fun _ => rfl⟩
    rw [after, moments_noting fun _ => rfl]
    exact line
  mark r m s _ := by
    have marked := sound.moments_emit m.destination [doneMarker] s
    rcases m.marking_cases r s with ⟨crash, lost, _⟩ | ⟨_, ended⟩
    · cases (sound.emit _ _ _).symm.trans lost
    refine deed [] [.log (.finished r.count r.elapsed)] ?_
      ⟨rfl, fun _ => rfl⟩ ⟨rfl, fun _ => rfl⟩
    have text : String.join [doneMarker] = doneMarker := by decide
    rw [ended, Minuted.minutes_log, moments_append, moments_noting fun _ => rfl, marked, text,
      moments_log (by simp [Event.level]), List.append_assoc, List.append_assoc, List.nil_append]
    rfl

end Served

/-- What holds of every deed holds of a run without redirections. -/
theorem Law.staying [Surroundings σ κ δ]
    {law : Meter κ δ × σ → List (Deed δ) → Meter κ δ × σ → Prop} (lawful : Law law)
    {lift : (τ → τ) → σ → σ} (meanwhile : ∀ change (m : Meter κ δ) s,
      law (m, s) [] (m, lift change s))
    (steps : List (Step τ δ)) (life : Meter κ δ × σ) :
    law life (Step.journal ((Step.staying steps).map (Step.among lift)) life)
      (Step.through ((Step.staying steps).map (Step.among lift)) life) := by
  induction steps generalizing life with
  | nil => exact lawful.stay life
  | cons step steps rest =>
    obtain ⟨m, s⟩ := life
    rcases step.own_or_other with own | ⟨destination, rfl⟩ | ⟨change, rfl⟩
    · rw [own.staying]
      exact lawful.trans (lawful.step (step.among lift) (own.among lift) m s) (rest _)
    · exact rest (m, s)
    · exact lawful.trans (meanwhile change m s) (rest _)

def Local (before : Meter κ δ × Minuted σ κ δ) (_ : List (Deed δ))
    (after : Meter κ δ × Minuted σ κ δ) : Prop :=
  after.1.destination = before.1.destination ∧
    ∃ dealings, after.2.minutes = before.2.minutes ++ dealings ∧
      ∀ dealing ∈ dealings, ∀ place, dealing.IsWith place → place = before.1.destination

namespace Local

theorem notes {event : Fault → Event} {delivery : Delivery} {dealing : Dealing κ δ}
    (member : dealing ∈ Cadence.notes event delivery) (place : Option δ) :
    ¬ dealing.IsWith place := by
  cases delivery with
  | failed fault =>
    cases List.mem_singleton.mp member
    exact id
  | _ => cases member

theorem emission {d place : Option δ} {bytes : List UInt8} {delivery : Delivery}
    {dealings : List (Dealing κ δ)} (emission : Emission d bytes delivery dealings)
    {dealing : Dealing κ δ} (member : dealing ∈ dealings) (there : dealing.IsWith place) :
    place = d := by
  have here := emission.isWith dealing member
  cases dealing with
  | write destination bytes reply => exact there.symm.trans here
  | flush destination delivery => exact there.symm.trans here
  | read clock now => exact here.elim
  | log e => exact here.elim

theorem law [Surroundings σ κ δ] : Law (Local (σ := σ) (κ := κ) (δ := δ)) where
  stay life := ⟨rfl, [], (List.append_nil _).symm, List.forall_mem_nil _⟩
  trans := by
    intro before mid after first second former latter
    obtain ⟨same, dealings, minutes, here⟩ := former
    obtain ⟨same', others, minutes', there⟩ := latter
    rw [same] at same' there
    refine ⟨same', dealings ++ others, ?_, List.forall_mem_append.mpr ⟨here, there⟩⟩
    rw [minutes', minutes, List.append_assoc]
  count m s c := ⟨rfl, [], (List.append_nil _).symm, List.forall_mem_nil _⟩
  report occasion m s := by
    obtain ⟨last, reports, frame⟩ := m.report_frame s
    obtain ⟨dealings, minutes, emission⟩ := m.report_minutes occasion s
    refine ⟨by rw [frame], _, minutes, ?_⟩
    intro dealing member place there
    simp only [List.cons_append, List.mem_cons, List.mem_append] at member
    rcases member with rfl | rfl | member | member
    · exact there.elim
    · exact there.elim
    · exact Local.emission emission member there
    · exact absurd there (notes member place)
  mark r m s _ := by
    obtain ⟨dealings, emission, ⟨crash, _, same, minutes⟩ | ⟨_, same, minutes⟩⟩ :=
      m.marking_minutes r s
    · refine ⟨by rw [same], dealings, minutes, ?_⟩
      intro dealing member place there
      exact Local.emission emission member there
    · refine ⟨by rw [same], _, minutes, ?_⟩
      intro dealing member place there
      simp only [List.mem_append, List.mem_singleton] at member
      rcases member with (member | member) | rfl
      · exact Local.emission emission member there
      · exact absurd there (notes member place)
      · exact there.elim

end Local

theorem Served.run (sound : writers.Sound) (interval : Interval) (d : Option δ) (clock : κ)
    (s : Parted clocks writers) (steps : List (Step τ δ)) :
    let start : _ × Minuted (Parted clocks writers) κ δ := Meter.begin interval d clock (.fresh s)
    let last := Step.through ((Step.staying steps).map Step.passing) start
    let deeds := Step.journal ((Step.staying steps).map Step.passing) start
    taken last.2.minutes = utf8 (written deeds) ∧
      flushPoints 0 (moments last.2.minutes) = ends 0 deeds := by
  intro start last deeds
  have served : Served start deeds last := by
    apply (Served.law sound).staying
    exact fun change m s => Served.idle rfl
  obtain ⟨shown, all, bytes, flushes⟩ := served
  rw [moments_begin] at all
  constructor
  · rw [← delivered_moments, all, delivered_append, bytes]
    rfl
  · rw [all, flushPoints_append, flushes]
    rfl

theorem Local.run (interval : Interval) (d : Option δ) (clock : κ) (s : Parted clocks writers)
    (steps : List (Step τ δ)) :
    let start : _ × Minuted (Parted clocks writers) κ δ := Meter.begin interval d clock (.fresh s)
    let last := Step.through ((Step.staying steps).map Step.passing) start
    ∀ dealing ∈ last.2.minutes, ∀ place, dealing.IsWith place → place = d := by
  intro start last dealing member place there
  have placed : Local start (Step.journal ((Step.staying steps).map Step.passing) start) last := by
    apply Local.law.staying
    exact fun change m s => Local.law.stay (m, s)
  obtain ⟨_, dealings, minutes, here⟩ := placed
  rw [minutes, minutes_begin] at member
  rcases List.mem_append.mp member with first | later
  · simp only [List.cons_append, List.nil_append, List.mem_cons, List.not_mem_nil,
      or_false] at first
    rcases first with rfl | rfl <;> exact there.elim
  · exact here dealing later place there

/-- A writer with a budget gets the first bytes of what a healthy writer gets in the same run, as
many as it has budget for, whatever parts it takes them in. It is flushed once for each report and
each marker that ends within the budget, right after the last byte of it and before anything else,
and not otherwise. -/
theorem received_within_budget (clocks : Clocks κ τ) {writers : Writers δ ω}
    {writers' : Writers δ ω'} {d : Option δ} {left : ω → Nat} (limited : writers.Limited d left)
    (sound : writers'.Sound) (interval : Interval) (clock : κ) (time : τ) (ink : ω) (ink' : ω')
    (steps : List (Step τ δ)) :
    let start : _ × Minuted (Parted clocks writers) κ δ :=
      Meter.begin interval d clock (.fresh ⟨time, ink⟩)
    let start' : _ × Minuted (Parted clocks writers') κ δ :=
      Meter.begin interval d clock (.fresh ⟨time, ink'⟩)
    let last := Step.through ((Step.staying steps).map Step.passing) start
    let whole := Step.through ((Step.staying steps).map Step.passing) start'
    let deeds := Step.journal ((Step.staying steps).map Step.passing) start'
    moments last.2.minutes = upTo (left ink) 0 (moments whole.2.minutes) ∧
    taken last.2.minutes = (taken whole.2.minutes).take (left ink) ∧
    flushPoints 0 (moments last.2.minutes) = (ends 0 deeds).filter (· ≤ left ink) ∧
    taken whole.2.minutes = utf8 (written deeds) ∧
    flushPoints 0 (moments whole.2.minutes) = ends 0 deeds ∧
    (∀ dealing ∈ last.2.minutes, ∀ place, dealing.IsWith place → place = d) ∧
    (∀ (m : Meter κ δ) (s : Minuted (Parted clocks writers) κ δ),
      (m.retire s).2 = (Step.close.run m s).2.2) := by
  intro start start' last whole deeds
  have initially : Behind (left ink) left d start start' :=
    .begin left interval d clock time ink ink'
  have behind := Behind.through limited sound steps initially
  obtain ⟨got, flushed⟩ := Served.run sound interval d clock ⟨time, ink'⟩ steps
  have placed := Local.run interval d clock (⟨time, ink⟩ : Parted clocks writers) steps
  refine ⟨behind.trails.shown, ?_, ?_, got, flushed, placed, Meter.retire_surroundings⟩
  · rw [← delivered_moments, behind.trails.shown, delivered_upTo, delivered_moments, Nat.sub_zero]
  · rw [behind.trails.shown, flushPoints_upTo (Nat.zero_le _), flushed]

def Writers.stingy : Writers Nat (Nat × Nat) where
  write
    | _, _, (left, pauses + 1) => (.interrupted, (left, pauses))
    | _, _, (0, 0) => (.failed .brokenPipe, (0, 0))
    | _, bytes, (left + 1, 0) =>
      let n := min bytes.length (min 7 (left + 1))
      (.accepted n, (left + 1 - n, 2))
  flush _ ink := (.failed .timedOut, ink)
  patience _ ink := ink.2
  patience_write := by
    intro _ bytes ink interrupted
    obtain ⟨left, pauses⟩ := ink
    cases pauses with
    | zero => cases left <;> cases interrupted
    | succ pauses => exact Nat.lt_succ_self pauses

theorem Writers.stingy_limited (d : Option Nat) : Writers.stingy.Limited d Prod.fst where
  write := by
    intro bytes ink some
    obtain ⟨left, pauses⟩ := ink
    cases pauses with
    | succ pauses => exact .interrupted rfl
    | zero =>
      cases left with
      | zero => exact .failed .brokenPipe rfl rfl
      | succ left =>
        have positive := List.length_pos_iff.mpr some
        refine .accepted ?_ ?_ ?_
        · omega
        · omega
        · simp only [Writers.stingy]
          omega
  flush := fun ink => ⟨rfl, fun crash lost => by cases lost⟩

theorem received_within_budget_stingy :
    let steps : List (Step Instant Nat) :=
      [.incrementBy 2, .meanwhile fun now => ⟨now.nanos + 7⟩, .increment, .report, .close]
    let start : _ × Minuted (Parted Clocks.standing Writers.stingy) Unit Nat :=
      Meter.begin ⟨2, by decide⟩ (some 0) () (.fresh ⟨⟨0⟩, (40, 1)⟩)
    let start' : _ × Minuted (Parted Clocks.standing Writers.patient) Unit Nat :=
      Meter.begin ⟨2, by decide⟩ (some 0) () (.fresh ⟨⟨0⟩, 0⟩)
    let last := Step.through ((Step.staying steps).map Step.passing) start
    let whole := Step.through ((Step.staying steps).map Step.passing) start'
    Writers.stingy.Limited (some 0) Prod.fst ∧ Writers.patient.Sound ∧
      moments last.2.minutes = upTo 40 0 (moments whole.2.minutes) ∧
      taken last.2.minutes = (taken whole.2.minutes).take 40 := by
  intro steps start start' last whole
  have limited := Writers.stingy_limited (some 0)
  obtain ⟨shown, bytes, _⟩ := received_within_budget Clocks.standing limited
    Writers.patient_sound ⟨2, by decide⟩ () ⟨0⟩ (40, 1) 0 steps
  exact ⟨limited, Writers.patient_sound, shown, bytes⟩

end Cadence
