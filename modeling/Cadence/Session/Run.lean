import Cadence.Session.Command
import Cadence.Session.Mask

namespace Cadence

structure Session.Seen where
  text : String
  flushes : Nat

structure Session where
  masked : Bool
  rig : Session.Rig
  clocks : Keyed Session.ClockHandle
  sinks : Keyed Nat
  seen : Keyed Session.Seen
  meters : Keyed (Meter Session.ClockHandle Nat)
  timers : Keyed (Timer Session.ClockHandle)

namespace Session

/-- A step of a session, which may have a problem after it has changed something. -/
abbrev SessionM := ExceptT Problem (StateM Session)

def empty (masked : Bool) : Session :=
  { masked, rig := .empty, clocks := [], sinks := [], seen := [], meters := [], timers := [] }

def shown (s : Session) (text : String) : String := if s.masked then mask text else text

def known {α : Type} (entry : Option α) : SessionM α :=
  match entry with
  | some a => pure a
  | none => throw .senseless

def clockNamed (name : String) : SessionM ClockHandle := do
  known (Keyed.get? name (← get).clocks)

def sinkNamed (name : String) : SessionM Nat := do
  known (Keyed.get? name (← get).sinks)

def destinationNamed (name : Option String) : SessionM (Option Nat) :=
  match name with
  | none => pure none
  | some name => do return some (← sinkNamed name)

def meterNamed (name : String) : SessionM (Meter ClockHandle Nat) := do
  known (Keyed.get? name (← get).meters)

def timerNamed (name : String) : SessionM (Timer ClockHandle) := do
  known (Keyed.get? name (← get).timers)

def processClock : SessionM ClockHandle := do
  if (← get).masked then return .process else throw .senseless

def onRig {α : Type} (f : Rig → α × Rig) : SessionM α :=
  modifyGet fun s =>
    let (a, rig) := f s.rig
    (a, { s with rig })

def orCrash {α : Type} : Attempt α → SessionM α
  | .ok a => pure a
  | .error c => throw (.crash c)

def setMeter (name : String) (m : Meter ClockHandle Nat) : SessionM Unit :=
  modify fun s => { s with meters := Keyed.insert name m s.meters }

def onMeter {α : Type} (name : String)
    (f : Meter ClockHandle Nat → Rig → Attempt α × Meter ClockHandle Nat × Rig) :
    SessionM α := do
  let m ← meterNamed name
  let (result, m) ← onRig fun rig =>
    let (result, m, rig) := f m rig
    ((result, m), rig)
  setMeter name m
  orCrash result

def setSink (name : String) (n : Nat) : SessionM Unit :=
  modify fun s =>
    { s with sinks := Keyed.insert name n s.sinks, seen := Keyed.insert name ⟨"", 0⟩ s.seen }

def setClockName (name : String) (h : ClockHandle) : SessionM Unit :=
  modify fun s => { s with clocks := Keyed.insert name h s.clocks }

def setTimer (name : String) (t : Timer ClockHandle) : SessionM Unit :=
  modify fun s => { s with timers := Keyed.insert name t s.timers }

def modifyOutlet (n : Nat) (f : Outlet → Outlet) : SessionM Unit :=
  onRig fun rig => ((), rig.modifyOutlet n f)

def resolve : NamedCue → SessionM Cue
  | .item v => pure (.item v)
  | .gap => pure .gap
  | .crash message => pure (.crash message)
  | .advance name d => do return .advance (← clockNamed name) d

def reportReply (r : Report) : SessionM Reply := do
  let s ← get
  return if s.masked then .maskedReport r.count (s.shown r.text) else .report r

def retired (m : Meter ClockHandle Nat) : SessionM Unit := do
  orCrash (← onRig m.retire)

def makeMeter (name : String) (interval : UInt64) (destination : Option Nat)
    (clock : ClockHandle) : SessionM Reply := do
  let s ← get
  match Meter.begin? interval destination clock s.rig with
  | .error e => throw (.setup e)
  | .ok (m, rig) =>
    set { s with rig, meters := Keyed.insert name m s.meters }
    if let some former := Keyed.get? name s.meters then retired former
    return .interval interval

def feed (name : String) (cues : List NamedCue) (hint : Option Hint) (use : Use) :
    SessionM Reply := do
  let cues ← cues.mapM resolve
  let v ← onMeter name fun meter rig =>
    let source : Script := { cues, hint }
    let (result, tap, rig) := (use.pulls (cues.length + 1)).run (Tap.mk source meter) rig
    (result, tap.meter, rig)
  return .value v

/-- Feeds two meters at once, the inner one first. The outer meter is in the hands of the feed, so
a crash of the feed ends its life; a second crash on that way is not noticed. -/
def feedBoth (inner outer : String) (cues : List NamedCue) (hint : Option Hint) (n : Nat) :
    SessionM Reply := do
  let cues ← cues.mapM resolve
  let second ← meterNamed outer
  if inner = outer then throw .senseless
  let (second, result) ← onMeter inner fun first rig =>
    let source : Tap (Tap Script ClockHandle Nat) ClockHandle Nat :=
      { source := { source := { cues, hint }, meter := first }, meter := second }
    let (result, tap, rig) := ((Use.take n).pulls (cues.length + 1)).run source rig
    (.ok (tap.meter, result), tap.source.meter, rig)
  match result with
  | .ok v =>
    setMeter outer second
    return .value v
  | .error crash =>
    modify fun s => { s with meters := Keyed.erase outer s.meters }
    let _ ← onRig second.retire
    throw (.crash crash)

def run : Command → SessionM Reply
  | .makeManual name => do
    setClockName name (← onRig fun rig => rig.addClock (.manual Rig.origin))
    return .nothing
  | .makeScripted name now step => do
    setClockName name (← onRig fun rig => rig.addClock (.scripted (Rig.origin.plus now) step))
    return .nothing
  | .shareClock clock name => do
    setClockName name (← clockNamed clock)
    return .nothing
  | .advance clock d => do
    let h ← clockNamed clock
    orCrash (← onRig fun rig => rig.advance h d)
    return .nothing
  | .setClock clock target => do
    let h ← clockNamed clock
    onRig fun rig => ((), rig.setClock h ((rig.clock h).set (Rig.origin.plus target)))
    return .nothing
  | .readClock clock => do
    let h ← clockNamed clock
    return .span ((← onRig (Rig.read h)).since Rig.origin)
  | .makeSink name outlet => do
    setSink name (← onRig fun rig => rig.addOutlet outlet)
    return .nothing
  | .setFaults sink faults => do
    let n ← sinkNamed sink
    unless ((← get).rig.outlet n).isPipe do throw .senseless
    modifyOutlet n fun o => { o with faults }
    return .nothing
  | .shareSink sink name => do
    setSink name (← sinkNamed sink)
    return .nothing
  | .write sink bytes => do
    modifyOutlet (← sinkNamed sink) fun o => o.append bytes
    return .number bytes.length
  | .contents sink => do
    let n ← sinkNamed sink
    let s ← get
    let o := s.rig.outlet n
    let bytes := if s.masked then none else some o.memory.size
    return .contents (s.shown o.contents) bytes o.memory.isEmpty
  | .clear sink => do
    modifyOutlet (← sinkNamed sink) Outlet.clear
    return .nothing
  | .makeMeter name (.onClock interval clock sink) => do
    let clock ← clockNamed clock
    makeMeter name interval (← destinationNamed sink) clock
  | .makeMeter name (.onProcess interval sink) => do
    let clock ← processClock
    makeMeter name interval (← destinationNamed sink) clock
  | .increment meter times => do
    onMeter meter (Meter.incrementTimes times)
    return .nothing
  | .incrementBy meter n => do
    onMeter meter fun m rig => m.incrementBy n rig
    return .nothing
  | .report meter => do
    reportReply (← onMeter meter Meter.report)
  | .close meter => do
    match ← onMeter meter Meter.close with
    | some r => reportReply r
    | none => return .nothing
  | .elapsed meter => do
    let m ← meterNamed meter
    let d ← onRig m.elapsed
    return if (← get).masked then .nothing else .span d
  | .describe meter => do
    return .outline (← meterNamed meter).outline
  | .redirect meter sink farewell => do
    let m ← meterNamed meter
    let (former, m) := m.redirect (← destinationNamed sink)
    setMeter meter m
    if let (some n, some text) := (former, farewell) then
      match ← onRig (writeAll (some n) (utf8 text)) with
      | .crashed c => throw (.crash c)
      | .done | .failed _ => pure ()
    return .previous former.isSome
  | .retire meter parting => do
    let m ← meterNamed meter
    modify fun s => { s with meters := Keyed.erase meter s.meters }
    match parting with
    | .scope =>
      retired m
      return .nothing
    | .unwinding =>
      retired m
      return .flag true
    | .thread n =>
      let (result, m) ← onRig fun rig =>
        let (result, m, rig) := m.incrementBy n rig
        ((result, m), rig)
      let parted ← onRig m.retire
      orCrash result
      orCrash parted
      return .number m.count.toNat
  | .feed meter cues hint use => feed meter cues hint use
  | .feedBoth inner outer cues hint n => feedBoth inner outer cues hint n
  | .describeTap meter cues => do
    return .outline (Tap.outline (Script.outline cues) (← meterNamed meter))
  | .makeTimer name clock started => do
    let h ← match clock with
      | some clock => clockNamed clock
      | none => processClock
    setTimer name (← if started then onRig (Timer.idle h).restart else pure (.idle h))
    return .nothing
  | .shareTimer timer name => do
    setTimer name (← timerNamed timer)
    return .nothing
  | .restart timer => do
    let t ← timerNamed timer
    setTimer timer (← onRig t.restart)
    return .nothing
  | .isStarted timer => do
    return .flag (← timerNamed timer).isStarted
  | .seconds timer => do
    let t ← timerNamed timer
    let x ← onRig t.seconds
    -- what the clock of the process says is not shown, except that it is not negative
    return if t.clock = .process && t.isStarted then .flag (!x.isNegative) else .real x
  | .timerElapsed timer => do
    let t ← timerNamed timer
    let d ← onRig t.elapsed
    return match d with
      | some d => if t.clock = .process then .flag true else .span d
      | none => if t.clock = .process then .flag false else .nothing

end Session

end Cadence
