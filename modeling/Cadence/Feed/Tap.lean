import Cadence.Feed.Source
import Cadence.Meter.Reporting

namespace Cadence

/-- A source whose items are counted by a meter, each after it has been handed out and before anyone
uses it. -/
structure Tap (ι κ δ : Type) where
  source : ι
  meter : Meter κ δ

namespace Tap

variable {ι σ κ δ α : Type} [Source ι σ α] [Surroundings σ κ δ]

def next (t : Tap ι κ δ) (s : σ) : Attempt (Option α) × Tap ι κ δ × σ :=
  match Source.next t.source s with
  | (.ok (some item), source, s) =>
    match t.meter.increment s with
    | (.ok _, meter, s) => (.ok (some item), { source, meter }, s)
    | (.error crash, meter, s) => (.error crash, { source, meter }, s)
  | (.ok none, source, s) => (.ok none, { t with source }, s)
  | (.error crash, source, s) => (.error crash, { t with source }, s)

instance : Source (Tap ι κ δ) σ α where
  next := next
  hint t := Source.hint t.source

def outline (source : Outline) (meter : Meter κ δ) : Outline :=
  .record "Counted" [("inner", source), ("counter", meter.outline)]

end Tap

end Cadence
