import Cadence.Crash

namespace Cadence

structure Hint where
  least : Nat
  most : Option Nat
deriving DecidableEq

/-- A source hands out items one at a time and may act on its surroundings as it does. After it has
handed out none it may still have more. -/
class Source (ι : Type) (σ α : outParam Type) where
  next : ι → σ → Attempt (Option α) × ι × σ
  hint : ι → Hint

end Cadence
