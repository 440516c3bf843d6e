import Cadence.Crash
import Cadence.Event
import Cadence.Time.Instant

namespace Cadence

inductive WriteReply
  | accepted (n : Nat)
  | interrupted
  | failed (fault : Fault)
  | crashed (crash : Crash)
deriving DecidableEq

inductive Delivery
  | done
  | failed (fault : Fault)
  | crashed (crash : Crash)
deriving DecidableEq

/-- Surroundings in state `σ`, with clocks named by `κ` and writers by `δ`; the destination `none`
is standard error. A writer may interrupt any number of times, but not forever: each interruption
lowers its patience. -/
class Surroundings (σ : Type) (κ δ : outParam Type) where
  read : κ → σ → Instant × σ
  write : Option δ → List UInt8 → σ → WriteReply × σ
  flush : Option δ → σ → Delivery × σ
  log : Event → σ → σ
  patience : Option δ → σ → Nat
  patience_write : ∀ d bytes s, (write d bytes s).1 = .interrupted →
    patience d (write d bytes s).2 < patience d s

end Cadence
