import Cadence.Session.Run
import Mathlib.Algebra.GroupWithZero.Nat

namespace Cadence

namespace Instant

def secondsLimit : Nat := 0x8000000000000000

def seconds? (n : Nat) : Option Nat := if n < secondsLimit then some n else none

/-- The instant a span later, reckoned in whole seconds and in nanoseconds below a second. Both are
added apart, and the nanoseconds carry into the seconds. -/
def carried? (t : Instant) (d : Span) : Option Instant :=
  let nanos := t.nanos % nanosPerSecond + d.fraction
  (seconds? (t.nanos / nanosPerSecond + d.wholeSeconds)).bind fun seconds =>
    if nanos < nanosPerSecond then some ⟨seconds * nanosPerSecond + nanos⟩
    else (seconds? (seconds + 1)).map fun seconds =>
      ⟨seconds * nanosPerSecond + (nanos - nanosPerSecond)⟩

theorem mul_add_lt_mul_iff {n rest limit unit : Nat} (part : rest < unit) :
    n * unit + rest < limit * unit ↔ n < limit := by
  have positive : 0 < unit := Nat.zero_lt_of_lt part
  rw [← Nat.div_lt_iff_lt_mul positive, Nat.mul_comm, Nat.mul_add_div positive,
    Nat.div_eq_of_lt part, Nat.add_zero]

theorem plus?_eq_carried? (t : Instant) (d : Span) : t.plus? d = t.carried? d := by
  have start := Nat.div_add_mod' t.nanos nanosPerSecond
  have moved : d.wholeSeconds * nanosPerSecond + d.fraction = d.nanos :=
    Nat.div_add_mod' d.nanos nanosPerSecond
  have before : t.nanos % nanosPerSecond < nanosPerSecond := Nat.mod_lt _ (by decide)
  have part : d.fraction < nanosPerSecond := Nat.mod_lt _ (by decide)
  have top : limit = secondsLimit * nanosPerSecond := rfl
  rw [plus?, plus, carried?, top]
  generalize t.nanos / nanosPerSecond = seconds at start ⊢
  generalize t.nanos % nanosPerSecond = nanos at start before ⊢
  generalize nanosPerSecond = unit at start moved before part ⊢
  rcases Nat.lt_or_ge (nanos + d.fraction) unit with single | carry
  · have sum : t.nanos + d.nanos =
        (seconds + d.wholeSeconds) * unit + (nanos + d.fraction) := by
      rw [← start, ← moved, Nat.add_mul]
      omega
    rw [sum, seconds?]
    by_cases low : seconds + d.wholeSeconds < secondsLimit
    · rw [if_pos ((mul_add_lt_mul_iff single).mpr low), if_pos low, Option.bind_some, if_pos single]
    · rw [if_neg (mt (mul_add_lt_mul_iff single).mp low), if_neg low, Option.bind_none]
  · have sum : t.nanos + d.nanos =
        (seconds + d.wholeSeconds + 1) * unit + (nanos + d.fraction - unit) := by
      rw [← start, ← moved, Nat.succ_mul, Nat.add_mul]
      omega
    have rest : nanos + d.fraction - unit < unit := by omega
    rw [sum, seconds?]
    by_cases next : seconds + d.wholeSeconds + 1 < secondsLimit
    · have low : seconds + d.wholeSeconds < secondsLimit := Nat.lt_of_succ_lt next
      rw [if_pos ((mul_add_lt_mul_iff rest).mpr next), if_pos low, Option.bind_some,
        if_neg (Nat.not_lt.mpr carry), seconds?, if_pos next, Option.map_some]
    · rw [if_neg (mt (mul_add_lt_mul_iff rest).mp next)]
      split
      · rw [Option.bind_some, if_neg (Nat.not_lt.mpr carry), seconds?, if_neg next,
          Option.map_none]
      · rfl

end Instant

namespace Session

section

variable {s : Session} {clock : String} {h : ClockHandle}

theorem run_clockNamed_bind {α : Type} (here : Keyed.get? clock s.clocks = some h)
    (f : ClockHandle → SessionM α) : (clockNamed clock >>= f).run s = (f h).run s := by
  change ((known (Keyed.get? clock s.clocks) : SessionM ClockHandle) >>= f).run s = (f h).run s
  rw [here]
  rfl

theorem run_shareClock (here : Keyed.get? clock s.clocks = some h) (name : String) :
    (run (.shareClock clock name)).run s =
      (.ok .nothing, { s with clocks := Keyed.insert name h s.clocks }) := by
  rw [run, run_clockNamed_bind here]
  rfl

theorem run_readClock (here : Keyed.get? clock s.clocks = some h) :
    (run (.readClock clock)).run s = (.ok (.span ((Rig.read h s.rig).1.since Rig.origin)),
      { s with rig := (Rig.read h s.rig).2 }) := by
  rw [run, run_clockNamed_bind here]
  rfl

theorem run_advance (here : Keyed.get? clock s.clocks = some h) (d : Span) :
    (run (.advance clock d)).run s =
      (((s.rig.advance h d).1.map fun _ => .nothing).mapError .crash,
        { s with rig := (s.rig.advance h d).2 }) := by
  rw [run, run_clockNamed_bind here]
  have moved : (onRig (fun rig => rig.advance h d) >>= fun attempt =>
      orCrash attempt >>= fun _ => (pure .nothing : SessionM Reply)).run s =
      (orCrash (s.rig.advance h d).1 >>= fun _ => (pure .nothing : SessionM Reply)).run
        { s with rig := (s.rig.advance h d).2 } := rfl
  refine moved.trans ?_
  cases (s.rig.advance h d).1 <;> rfl

end

namespace Rig

variable {rig : Rig} {n : Nat} {now : Instant}

theorem clocks_setClock {c : Clock} (inside : n < rig.clocks.size) (i : Nat) :
    (rig.setClock (.numbered n) c).clocks[i]? = if n = i then some c else rig.clocks[i]? := by
  rw [setClock, Array.getElem?_setIfInBounds, if_pos inside]

theorem setClock_same {c : Clock} (here : rig.clocks[n]? = some c) :
    rig.setClock (.numbered n) c = rig := by
  obtain ⟨inside, _⟩ := Array.getElem?_eq_some_iff.mp here
  have same : rig.clocks.setIfInBounds n c = rig.clocks := by
    apply Array.ext_getElem?
    intro i
    refine (clocks_setClock inside i).trans ?_
    split
    · rename_i place
      rw [← place, here]
    · rfl
  rw [setClock, same]

theorem read_manual (here : rig.clocks[n]? = some (.manual now)) :
    Surroundings.read (.numbered n) rig = (now, rig) := by
  change ((rig.clock (.numbered n)).read.1,
    rig.setClock (.numbered n) (rig.clock (.numbered n)).read.2) = _
  rw [clock_numbered here, Clock.read, setClock_same here]

theorem advance_within (here : rig.clocks[n]? = some (.manual now)) {d : Span}
    (fits : now.nanos + d.nanos < Instant.limit) :
    rig.advance (.numbered n) d =
      (.ok (), rig.setClock (.numbered n) (.manual (now.plus d))) := by
  have moved : (Clock.manual now).advance d = .ok (.manual (now.plus d)) := by
    rw [Clock.advance, Instant.plus?, if_pos fits]
  rw [advance, clock_numbered here, moved]

theorem advance_beyond (here : rig.clocks[n]? = some (.manual now)) {d : Span}
    (beyond : Instant.limit ≤ now.nanos + d.nanos) :
    rig.advance (.numbered n) d = (.error .instantOverflow, rig) := by
  have refused : (Clock.manual now).advance d = .error .instantOverflow := by
    rw [Clock.advance, Instant.plus?, if_neg (Nat.not_lt.mpr beyond)]
  rw [advance, clock_numbered here, refused]

end Rig

inductive Ticking
  | share (clock name : String)
  | advance (clock : String) (d : Span)
  | read (clock : String)

namespace Ticking

def command : Ticking → Command
  | .share clock name => .shareClock clock name
  | .advance clock d => .advance clock d
  | .read clock => .readClock clock

def clock : Ticking → String
  | .share clock _ | .advance clock _ | .read clock => clock

def names (known : List String) : Ticking → List String
  | .share _ name => name :: known
  | _ => known

def run (act : Ticking) (s : Session) : Except Problem Reply × Session :=
  (Session.run act.command).run s

def through : List Ticking → Session → Session
  | [], s => s
  | act :: acts, s => through acts (act.run s).2

def answers : List Ticking → Session → List (Ticking × Except Problem Reply)
  | [], _ => []
  | act :: acts, s => (act, (act.run s).1) :: answers acts (act.run s).2

def reading? (s : Session) : Ticking → Option Instant
  | .read clock => (Keyed.get? clock s.clocks).map fun h => (Surroundings.read h s.rig).1
  | _ => none

def readings : List Ticking → Session → List Instant
  | [], _ => []
  | act :: acts, s => (act.reading? s).toList ++ readings acts (act.run s).2

def gain : Ticking × Except Problem Reply → Nat
  | (.advance _ d, .ok _) => d.nanos
  | _ => 0

def gained (done : List (Ticking × Except Problem Reply)) : Nat := (done.map gain).sum

def span? : Ticking → Option Span
  | .advance _ d => some d
  | _ => none

def total (acts : List Ticking) : Nat := ((acts.filterMap span?).map Span.nanos).sum

def allNames : List Ticking → List String → List String
  | [], known => known
  | act :: acts, known => allNames acts (act.names known)

def Among : List String → List Ticking → Prop
  | _, [] => True
  | known, act :: acts => act.clock ∈ known ∧ Among (act.names known) acts

end Ticking

def Shows (s : Session) (name : String) (now : Instant) : Prop :=
  ∃ h, Keyed.get? name s.clocks = some h ∧ Surroundings.read h s.rig = (now, s.rig) ∧
    (run (.readClock name)).run s = (.ok (.span (now.since Rig.origin)), s)

structure Telling (n : Nat) (known : List String) (now : Instant) (s : Session) : Prop where
  names : ∀ name ∈ known, Keyed.get? name s.clocks = some (.numbered n)
  clock : s.rig.clocks[n]? = some (.manual now)

namespace Telling

open Ticking

variable {s : Session} {n : Nat} {known : List String} {now : Instant}

theorem addClock (s : Session) (first : String) (start : Instant) :
    Telling s.rig.clocks.size [first] start
      { s with
        rig := (s.rig.addClock (.manual start)).2
        clocks := Keyed.insert first (s.rig.addClock (.manual start)).1 s.clocks } where
  names := by
    intro name member
    rw [List.mem_singleton.mp member]
    exact (Keyed.get?_insert ..).trans (if_pos rfl)
  clock := Array.getElem?_push_size

theorem run_read (telling : Telling n known now s) {name : String} (member : name ∈ known) :
    (Session.run (.readClock name)).run s = (.ok (.span (now.since Rig.origin)), s) := by
  have reading : Rig.read (.numbered n) s.rig = (now, s.rig) := Rig.read_manual telling.clock
  rw [run_readClock (telling.names name member), reading]

theorem shows (telling : Telling n known now s) {name : String} (member : name ∈ known) :
    s.Shows name now :=
  ⟨_, telling.names name member, Rig.read_manual telling.clock, telling.run_read member⟩

theorem run_within (telling : Telling n known now s) {name : String} (member : name ∈ known)
    {d : Span} (fits : now.nanos + d.nanos < Instant.limit) :
    ∃ later, (Ticking.advance name d).run s = (.ok .nothing, later) ∧
      Telling n known (now.plus d) later := by
  obtain ⟨inside, _⟩ := Array.getElem?_eq_some_iff.mp telling.clock
  let later : Session := { s with rig := s.rig.setClock (.numbered n) (.manual (now.plus d)) }
  refine ⟨later, ?_, ⟨telling.names, (Rig.clocks_setClock inside n).trans (if_pos rfl)⟩⟩
  refine (run_advance (telling.names name member) d).trans ?_
  rw [Rig.advance_within telling.clock fits]
  rfl

theorem run_beyond (telling : Telling n known now s) {name : String} (member : name ∈ known)
    {d : Span} (beyond : Instant.limit ≤ now.nanos + d.nanos) :
    (Ticking.advance name d).run s = (.error (.crash .instantOverflow), s) := by
  refine (run_advance (telling.names name member) d).trans ?_
  rw [Rig.advance_beyond telling.clock beyond]
  rfl

theorem acted (telling : Telling n known now s) {act : Ticking} (member : act.clock ∈ known) :
    Telling n (act.names known) ⟨now.nanos + gain (act, (act.run s).1)⟩ (act.run s).2 := by
  cases act with
  | share clock name =>
    have shared : (Ticking.share clock name).run s =
        (.ok .nothing, { s with clocks := Keyed.insert name (.numbered n) s.clocks }) :=
      run_shareClock (telling.names clock member) name
    rw [shared]
    refine ⟨?_, telling.clock⟩
    intro other member
    rw [Keyed.get?_insert]
    rcases List.mem_cons.mp member with rfl | member
    · exact if_pos rfl
    · split
      · rfl
      · exact telling.names other member
  | advance clock d =>
    have place : clock ∈ known := member
    rcases Nat.lt_or_ge (now.nanos + d.nanos) Instant.limit with fits | beyond
    · obtain ⟨later, moved, told⟩ := telling.run_within place fits
      rw [moved]
      exact told
    · rw [telling.run_beyond place beyond]
      exact telling
  | read clock =>
    have read : (Ticking.read clock).run s = (.ok (.span (now.since Rig.origin)), s) :=
      telling.run_read member
    rw [read]
    exact telling

theorem through (telling : Telling n known now s) {acts : List Ticking}
    (among : Among known acts) :
    Telling n (Ticking.allNames acts known) ⟨now.nanos + gained (answers acts s)⟩
      (Ticking.through acts s) := by
  induction acts generalizing known now s with
  | nil => exact telling
  | cons act acts rest =>
    obtain ⟨member, later⟩ := among
    have told := rest (telling.acted member) later
    rw [answers, gained, List.map_cons, List.sum_cons, ← Nat.add_assoc]
    exact told

theorem readings_sorted (telling : Telling n known now s) {acts : List Ticking}
    (among : Among known acts) :
    (now :: Ticking.readings acts s).Pairwise fun earlier now => earlier.nanos ≤ now.nanos := by
  induction acts generalizing known now s with
  | nil => exact List.pairwise_singleton _ _
  | cons act acts rest =>
    obtain ⟨member, later⟩ := among
    have told := rest (telling.acted member) later
    obtain ⟨after, sorted⟩ := List.pairwise_cons.mp told
    have onward : ∀ t ∈ Ticking.readings acts (act.run s).2, now.nanos ≤ t.nanos := fun t among =>
      Nat.le_trans (Nat.le_add_right _ _) (after t among)
    cases act with
    | share clock name => exact List.pairwise_cons.mpr ⟨onward, sorted⟩
    | advance clock d => exact List.pairwise_cons.mpr ⟨onward, sorted⟩
    | read clock =>
      have reading : (Ticking.read clock).reading? s = some now := by
        rw [reading?, telling.names clock member, Option.map_some, Rig.read_manual telling.clock]
      rw [Ticking.readings, reading]
      have again : ∀ t ∈ now :: Ticking.readings acts ((Ticking.read clock).run s).2,
          now.nanos ≤ t.nanos := by
        rintro t (_ | ⟨_, among⟩)
        · exact Nat.le_refl _
        · exact onward t among
      exact List.pairwise_cons.mpr ⟨again, List.pairwise_cons.mpr ⟨onward, sorted⟩⟩

/-- If the latest instant is far enough away, no act is refused. -/
theorem gained_total (telling : Telling n known now s) {acts : List Ticking}
    (among : Among known acts) (fits : now.nanos + total acts < Instant.limit) :
    gained (answers acts s) = total acts := by
  induction acts generalizing known now s with
  | nil => rfl
  | cons act acts rest =>
    obtain ⟨member, later⟩ := among
    have told := telling.acted member
    rw [answers, gained, List.map_cons, List.sum_cons, ← gained]
    cases act with
    | share clock name =>
      have still : gain (.share clock name, ((Ticking.share clock name).run s).1) = 0 := rfl
      rw [still] at told ⊢
      rw [rest told later fits, Nat.zero_add]
      rfl
    | read clock =>
      have still : gain (.read clock, ((Ticking.read clock).run s).1) = 0 := rfl
      rw [still] at told ⊢
      rw [rest told later fits, Nat.zero_add]
      rfl
    | advance clock d =>
      have sum : total (.advance clock d :: acts) = d.nanos + total acts := List.sum_cons
      have place : clock ∈ known := member
      obtain ⟨after, moved, _⟩ := telling.run_within (d := d) place (by omega)
      have onward : gain (.advance clock d, ((Ticking.advance clock d).run s).1) = d.nanos := by
        rw [moved]
        rfl
      rw [onward] at told ⊢
      rw [rest told later (by rw [Nat.add_assoc, ← sum]; exact fits), sum]

end Telling

open Ticking

/-- All names of a manual clock show one time, whatever is done through which of them: the instant
it started at and all spans that it was moved on by since, exact to the nanosecond. A span that
would lead past the latest instant is refused and changes nothing, so the clock goes on as before.
No reading is earlier than the one before, and spans that all fit lead to the same time in any order
and through any names. -/
theorem time_of_shared (s : Session) (first : String) (start : Instant) (acts : List Ticking)
    (among : Among [first] acts) :
    let made := s.rig.addClock (.manual start)
    let begun := { s with rig := made.2, clocks := Keyed.insert first made.1 s.clocks }
    let ended := Ticking.through acts begun
    let known := Ticking.allNames acts [first]
    let now : Instant := ⟨start.nanos + gained (answers acts begun)⟩
    (∀ name ∈ known, ended.Shows name now) ∧
    (∀ name ∈ known, ∀ d,
      (now.nanos + d.nanos < Instant.limit → ∃ later,
        (Ticking.advance name d).run ended = (.ok .nothing, later) ∧
          ∀ other ∈ known, later.Shows other ⟨now.nanos + d.nanos⟩) ∧
      (Instant.limit ≤ now.nanos + d.nanos →
        (Ticking.advance name d).run ended = (.error (.crash .instantOverflow), ended))) ∧
    (start :: Ticking.readings acts begun).Pairwise (fun earlier now => earlier.nanos ≤ now.nanos) ∧
    (start.nanos + total acts < Instant.limit → ∀ others, Among [first] others →
      (others.filterMap span?).Perm (acts.filterMap span?) →
        now = ⟨start.nanos + total acts⟩ ∧ ∀ name ∈ Ticking.allNames others [first],
          (Ticking.through others begun).Shows name now) ∧
    (∀ (t : Instant) (d : Span), t.plus? d = t.carried? d) := by
  intro made begun ended known now
  have telling : Telling s.rig.clocks.size [first] start begun := .addClock s first start
  have told : Telling s.rig.clocks.size known now ended := telling.through among
  refine ⟨fun name member => told.shows member, ?_, telling.readings_sorted among, ?_,
    Instant.plus?_eq_carried?⟩
  · intro name member d
    refine ⟨fun fits => ?_, told.run_beyond member⟩
    obtain ⟨later, moved, shown⟩ := told.run_within member fits
    exact ⟨later, moved, fun other member => shown.shows member⟩
  · intro fits others among' order
    have sum : total others = total acts := (order.map Span.nanos).sum_nat
    have here : now = ⟨start.nanos + total acts⟩ :=
      congrArg Instant.mk (congrArg (start.nanos + ·) (telling.gained_total among fits))
    have there := telling.through among'
    rw [telling.gained_total among' (by rw [sum]; exact fits), sum, ← here] at there
    exact ⟨here, fun name member => there.shows member⟩

theorem time_of_shared_refused :
    let acts : List Ticking := [.share "a" "b", .advance "b" ⟨5⟩, .advance "a" ⟨Instant.limit⟩,
      .read "b", .advance "a" ⟨7⟩]
    let smaller : List Ticking := [.advance "a" ⟨7⟩, .share "a" "b", .advance "b" ⟨5⟩]
    let others : List Ticking := [.share "a" "c", .advance "c" ⟨5⟩, .advance "a" ⟨7⟩]
    let begun := ((run (.makeManual "a")).run (.empty false)).2
    let ended := Ticking.through acts begun
    Among ["a"] acts ∧ Among ["a"] smaller ∧ Among ["a"] others ∧
      ended.Shows "b" ⟨Rig.origin.nanos + 12⟩ ∧
      (Ticking.advance "b" ⟨Instant.limit⟩).run ended =
        (.error (.crash .instantOverflow), ended) ∧
      (Ticking.through others begun).Shows "c" ⟨Rig.origin.nanos + 12⟩ := by
  intro acts smaller others begun ended
  have among : Among ["a"] acts := by simp [acts, Among, Ticking.clock, Ticking.names]
  have among' : Among ["a"] smaller := by simp [smaller, Among, Ticking.clock, Ticking.names]
  have among'' : Among ["a"] others := by simp [others, Among, Ticking.clock, Ticking.names]
  obtain ⟨shown, onward, _⟩ := time_of_shared (.empty false) "a" Rig.origin acts among
  obtain ⟨_, _, _, ordered, _⟩ := time_of_shared (.empty false) "a" Rig.origin smaller among'
  have member : "b" ∈ Ticking.allNames acts ["a"] := by
    simp [acts, Ticking.allNames, Ticking.names]
  have member' : "c" ∈ Ticking.allNames others ["a"] := by
    simp [others, Ticking.allNames, Ticking.names]
  have gains : gained (answers acts begun) = 12 := by decide +kernel
  have here : ended.Shows "b" ⟨Rig.origin.nanos + gained (answers acts begun)⟩ :=
    shown "b" member
  rw [gains] at here
  have refused := (onward "b" member ⟨Instant.limit⟩).2 (Nat.le_add_left _ _)
  have fits : Rig.origin.nanos + total smaller < Instant.limit := by decide +kernel
  obtain ⟨now, there⟩ := ordered fits others among'' (List.Perm.swap _ _ _)
  have other := there "c" member'
  rw [now] at other
  exact ⟨among, among', among'', here, refused, other⟩

end Session

end Cadence
