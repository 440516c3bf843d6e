import Cadence.Feed.Pulls
import Cadence.Feed.Tap
import Cadence.Json.Basic
import Cadence.Session.Rig

namespace Cadence.Session

inductive Cue
  | item (v : Json)
  | gap
  | advance (clock : ClockHandle) (d : Span)
  | crash (message : String)

structure Script where
  cues : List Cue
  hint : Option Hint

namespace Script

def next (hint : Option Hint) : List Cue → Rig → Attempt (Option Json) × Script × Rig
  | [], rig => (.ok none, ⟨[], hint⟩, rig)
  | .item v :: cues, rig => (.ok (some v), ⟨cues, hint⟩, rig)
  | .gap :: cues, rig => (.ok none, ⟨cues, hint⟩, rig)
  | .crash message :: cues, rig => (.error (.raised message), ⟨cues, hint⟩, rig)
  | .advance clock d :: cues, rig =>
    match rig.advance clock d with
    | (.ok _, rig) => next hint cues rig
    | (.error crash, rig) => (.error crash, ⟨cues, hint⟩, rig)

instance : Source Script Rig Json where
  next script := next script.hint script.cues
  hint script := script.hint.getD ⟨script.cues.length, some script.cues.length⟩

def outline (cues : Nat) : Outline := .atom ("Script(" ++ Decimal.text cues ++ ")")

end Script

inductive Use
  | collect
  | trace (n : Nat)
  | nth (n : Nat)
  | take (n : Nat)
  | skip (n : Nat)
  | stepBy (n : Nat)
  | count
  | last
  | find (what : Json)
  | filter (what : Json)
  | zip (partners : List Json)
  | peek
  | split (n : Nat)

def orNull (item : Option Json) : Json := item.getD .null

def hintValues (h : Hint) : List Json :=
  [.integer h.least, orNull (h.most.map fun n => .integer n)]

def Use.pulls (limit : Nat) : Use → Pulls Json Json
  | .collect => (Pulls.collect limit).bind fun items => .done (.array items)
  | .trace n => (Pulls.trace n).bind fun (answers, hint) =>
    let shown := answers.map fun (hint, item) => Json.array (hintValues hint ++ [orNull item])
    .done (.array (.array shown :: hintValues hint))
  | .nth n => (Pulls.nth n).bind fun item => .done (orNull item)
  | .take n => (Pulls.take n).bind fun items => .done (.array items)
  | .skip n => (Pulls.skip n limit).bind fun items => .done (.array items)
  | .stepBy n => (Pulls.stepBy n limit).bind fun items => .done (.array items)
  | .count => (Pulls.count limit).bind fun n => .done (.integer n)
  | .last => (Pulls.last limit).bind fun item => .done (orNull item)
  | .find what => (Pulls.find (·.same what) limit).bind fun item => .done (orNull item)
  | .filter what => (Pulls.filter (!·.same what) limit).bind fun items => .done (.array items)
  | .zip partners => (Pulls.zip partners).bind fun pairs =>
    .done (.array (pairs.map fun (item, partner) => .array [item, partner]))
  | .peek => Pulls.pull.bind fun item => .done (orNull item)
  | .split n => (Pulls.split n limit).bind fun (front, rest) =>
    .done (.array [.array front, .array rest])

end Cadence.Session
