import Cadence.Surroundings

namespace Cadence

structure Timer (κ : Type) where
  clock : κ
  start : Option Instant

namespace Timer

variable {σ κ δ : Type} [Surroundings σ κ δ]

def idle (clock : κ) : Timer κ := ⟨clock, none⟩

def isStarted (t : Timer κ) : Bool := t.start.isSome

def restart (t : Timer κ) (s : σ) : Timer κ × σ :=
  let (now, s) := Surroundings.read t.clock s
  ({ t with start := some now }, s)

def elapsed (t : Timer κ) (s : σ) : Option Span × σ :=
  match t.start with
  | none => (none, s)
  | some start =>
    let (now, s) := Surroundings.read t.clock s
    (some (now.since start), s)

def seconds (t : Timer κ) (s : σ) : Binary64 × σ :=
  match t.elapsed s with
  | (some d, s) => (d.microseconds, s)
  | (none, s) => (.zero, Surroundings.log .readBeforeStart s)

end Timer

end Cadence
