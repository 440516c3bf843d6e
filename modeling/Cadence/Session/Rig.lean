import Cadence.Session.Outlet
import Cadence.Time.Clock

namespace Cadence.Session

inductive ClockHandle
  | process
  | numbered (n : Nat)
deriving DecidableEq

structure Rig where
  clocks : Array Clock
  outlets : Array Outlet
  standardError : Array UInt8
  events : Array Event

namespace Rig

def empty : Rig := { clocks := #[], outlets := #[], standardError := #[], events := #[] }

def origin : Instant := ⟨1000 * nanosPerSecond⟩

def addClock (rig : Rig) (c : Clock) : ClockHandle × Rig :=
  (.numbered rig.clocks.size, { rig with clocks := rig.clocks.push c })

def addOutlet (rig : Rig) (o : Outlet) : Nat × Rig :=
  (rig.outlets.size, { rig with outlets := rig.outlets.push o })

def clock (rig : Rig) : ClockHandle → Clock
  | .process => .manual origin
  | .numbered n => rig.clocks.getD n (.manual origin)

def setClock (rig : Rig) (h : ClockHandle) (c : Clock) : Rig :=
  match h with
  | .process => rig
  | .numbered n => { rig with clocks := rig.clocks.setIfInBounds n c }

def outlet (rig : Rig) (n : Nat) : Outlet := rig.outlets.getD n .empty

def modifyOutlet (rig : Rig) (n : Nat) (f : Outlet → Outlet) : Rig :=
  { rig with outlets := rig.outlets.modify n f }

def advance (rig : Rig) (h : ClockHandle) (d : Span) : Attempt Unit × Rig :=
  match (rig.clock h).advance d with
  | .ok c => (.ok (), rig.setClock h c)
  | .error crash => (.error crash, rig)

def read (h : ClockHandle) (rig : Rig) : Instant × Rig :=
  let (now, c) := (rig.clock h).read
  (now, rig.setClock h c)

def write (destination : Option Nat) (bytes : List UInt8) (rig : Rig) : WriteReply × Rig :=
  match destination with
  | none =>
    (.accepted bytes.length, { rig with standardError := rig.standardError ++ bytes.toArray })
  | some n =>
    let reply := (rig.outlet n).reply bytes
    (reply, rig.modifyOutlet n fun o => o.afterReply bytes reply)

def flush (destination : Option Nat) (rig : Rig) : Delivery × Rig :=
  match destination with
  | none => (.done, rig)
  | some n => ((rig.outlet n).flushReply, rig.modifyOutlet n Outlet.afterFlush)

def log (e : Event) (rig : Rig) : Rig := { rig with events := rig.events.push e }

def patience (destination : Option Nat) (rig : Rig) : Nat :=
  match destination with
  | none => 0
  | some n => (rig.outlet n).faults.interrupts

theorem clock_numbered {rig : Rig} {n : Nat} {c : Clock} (here : rig.clocks[n]? = some c) :
    rig.clock (.numbered n) = c := by
  rw [clock, Array.getD_eq_getD_getElem?, here, Option.getD_some]

theorem outlet_modifyOutlet (rig : Rig) (n : Nat) (f : Outlet → Outlet) (h : n < rig.outlets.size) :
    (rig.modifyOutlet n f).outlet n = f (rig.outlet n) := by
  simp [outlet, modifyOutlet, Array.getD_eq_getD_getElem?, Array.getElem_modify, h]

theorem patience_write (destination : Option Nat) (bytes : List UInt8) (rig : Rig)
    (interrupted : (write destination bytes rig).1 = .interrupted) :
    patience destination (write destination bytes rig).2 < patience destination rig := by
  cases destination with
  | none => simp [write] at interrupted
  | some n =>
    have reply : (rig.outlet n).reply bytes = .interrupted := interrupted
    have positive : 0 < (rig.outlet n).faults.interrupts := by
      simp only [Outlet.reply] at reply
      split at reply
      · assumption
      · split at reply
        · split at reply <;> cases reply
        · cases reply
    have inside : n < rig.outlets.size := by
      by_cases h : n < rig.outlets.size
      · exact h
      · simp [outlet, Array.getD_eq_getD_getElem?, h, Outlet.empty, Faults.none] at positive
    simp only [write, patience, outlet_modifyOutlet _ _ _ inside, reply, Outlet.afterReply]
    omega

instance : Surroundings Rig ClockHandle Nat where
  read := read
  write := write
  flush := flush
  log := log
  patience := patience
  patience_write := patience_write

end Rig

end Cadence.Session
