import Cadence.Session.Run

namespace Cadence.Session

inductive Change
  | appended (text : String)
  | replaced (text : String)

structure Record where
  outputs : Keyed Change
  flushes : Keyed Nat
  standardError : String
  events : List Event

def Change.map (f : String → String) : Change → Change
  | appended text => appended (f text)
  | replaced text => replaced (f text)

def change? (before after : String) : Option Change :=
  if before = after then none
  else match after.dropPrefix? before with
    | some rest => some (.appended rest.copy)
    | none => some (.replaced after)

def look (s : Session) (n : Nat) : Seen :=
  let o := s.rig.outlet n
  { text := o.contents, flushes := if o.isPipe then o.flushes else 0 }

/-- Records what became visible, so that the next record begins after it. The contents of a sink are
compared as they are, and what is new in them is shown: a report that comes in several pieces is
not masked in any of them. -/
def takeRecord (s : Session) : Record × Session :=
  let views := s.sinks.map fun (name, n) =>
    (name, (Keyed.get? name s.seen).getD ⟨"", 0⟩, s.look n)
  let record : Record :=
    { outputs := views.filterMap fun (name, before, now) =>
        (change? before.text now.text).map fun change => (name, change.map s.shown)
      flushes := views.filterMap fun (name, before, now) =>
        if before.flushes = now.flushes then none else some (name, now.flushes)
      standardError := s.shown (Lossy.decode s.rig.standardError.toList)
      events := s.rig.events.toList }
  (record,
    { s with
      seen := views.map fun (name, _, now) => (name, now)
      rig := { s.rig with standardError := #[], events := #[] } })

structure Tally where
  count : UInt64
  reports : UInt64
  finished : Bool

def tally? (s : Session) (name : String) : Option Tally :=
  (Keyed.get? name s.meters).map fun m => ⟨m.count, m.reports, m.finished⟩

structure Answer where
  result : Except Problem Reply
  tally : Option Tally
  record : Record

def perform (subject : Option String) (command : Option Command) (s : Session) :
    Answer × Session :=
  let (result, s) := match command with
    | some command => (run command).run s
    | none => (.error .senseless, s)
  let (record, s) := s.takeRecord
  ({ result, tally := subject.bind s.tally?, record }, s)

def conclude (s : Session) : Keyed (Option Crash) × Record :=
  let (partings, rig) := s.meters.foldl
    (fun (partings, rig) (name, m) =>
      match m.retire rig with
      | (.ok _, rig) => (partings ++ [(name, none)], rig)
      | (.error crash, rig) => (partings ++ [(name, some crash)], rig))
    (([] : Keyed (Option Crash)), s.rig)
  (partings, (takeRecord { s with rig, meters := [] }).1)

end Cadence.Session
