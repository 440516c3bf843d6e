import Cadence.Surroundings
import Cadence.Text.Lossy

namespace Cadence.Session

inductive Refusal
  | fails (fault : Fault)
  | takesNothing
  | crashes

structure Faults where
  limit : Option Nat
  chunk : Option Nat
  interrupts : Nat
  refusal : Refusal
  -- how every flush fails: by a crash if no fault is given
  flushFailure : Option (Option Fault)

def Faults.none : Faults :=
  { limit := .none, chunk := .none, interrupts := 0, refusal := .fails .brokenPipe,
    flushFailure := .none }

structure Outlet where
  memory : Array UInt8
  isPipe : Bool
  faults : Faults
  flushes : Nat

namespace Outlet

def empty : Outlet := { memory := #[], isPipe := false, faults := .none, flushes := 0 }

def pipe (faults : Faults) : Outlet := { empty with isPipe := true, faults }

def contents (o : Outlet) : String := Lossy.decode o.memory.toList

def append (o : Outlet) (bytes : List UInt8) : Outlet :=
  { o with memory := o.memory ++ bytes.toArray }

def clear (o : Outlet) : Outlet := { o with memory := #[] }

def reply (o : Outlet) (bytes : List UInt8) : WriteReply :=
  if 0 < o.faults.interrupts then .interrupted
  else if o.faults.limit = some 0 ∧ bytes ≠ [] then
    match o.faults.refusal with
    | .fails fault => .failed fault
    | .takesNothing => .accepted 0
    | .crashes => .crashed (.raised "writer panicked")
  else
    let offered := min bytes.length (o.faults.chunk.getD bytes.length)
    .accepted (min offered (o.faults.limit.getD offered))

def afterReply (o : Outlet) (bytes : List UInt8) : WriteReply → Outlet
  | .accepted n =>
    { o with
      memory := o.memory ++ (bytes.take n).toArray
      faults.limit := o.faults.limit.map (· - n) }
  | .interrupted => { o with faults.interrupts := o.faults.interrupts - 1 }
  | .failed _ | .crashed _ => o

def flushReply (o : Outlet) : Delivery :=
  match o.faults.flushFailure with
  | none => .done
  | some (some fault) => .failed fault
  | some none => .crashed (.raised "flush panicked")

def afterFlush (o : Outlet) : Outlet := { o with flushes := o.flushes + 1 }

end Outlet

end Cadence.Session
