import Cadence.Binary64.Basic
import Cadence.Binary64.Rounding
import Cadence.Binary64.Arithmetic
import Cadence.Decimal.Digits
import Cadence.Decimal.Fixed
import Cadence.Decimal.Shortest
import Cadence.Decimal.Layout
import Cadence.Text.Lossy
import Cadence.Text.Graphic
import Cadence.Text.Quoted
import Cadence.Text.Outline
import Cadence.Json.Basic
import Cadence.Json.Numeral
import Cadence.Json.Token
import Cadence.Json.Tree
import Cadence.Json.Printer
import Cadence.Crash
import Cadence.Time.Instant
import Cadence.Time.Clock
import Cadence.Report
import Cadence.Event
import Cadence.Surroundings
import Cadence.Emission
import Cadence.Meter.Basic
import Cadence.Meter.Count
import Cadence.Meter.Reporting
import Cadence.Timer
import Cadence.Feed.Source
import Cadence.Feed.Tap
import Cadence.Feed.Pulls
import Cadence.Keyed
import Cadence.Settings.Basic
import Cadence.Settings.Entries
import Cadence.Settings.Reading
import Cadence.Session.Outlet
import Cadence.Session.Rig
import Cadence.Session.Script
import Cadence.Session.Mask
import Cadence.Session.Command
import Cadence.Session.Run
import Cadence.Session.Record
import Cadence.Proofs.Text.Lossy
import Cadence.Proofs.Text.Intact
import Cadence.Proofs.Text.Occurrences
import Cadence.Proofs.Decimal.Numerals
import Cadence.Proofs.Text.StatusLine
import Cadence.Proofs.Meter.Boundaries
import Cadence.Proofs.Meter.Course
import Cadence.Proofs.Meter.Advance
import Cadence.Proofs.Meter.Bulk
import Cadence.Proofs.Meter.Passage
import Cadence.Proofs.Text.Transcript
import Cadence.Proofs.Emission.Outlet
import Cadence.Proofs.Emission.Peaceful
import Cadence.Proofs.Life.Step
import Cadence.Proofs.Life.Tally
import Cadence.Proofs.Life.Reliable
import Cadence.Proofs.Life.Smooth
import Cadence.Proofs.Life.Bound
import Cadence.Proofs.Life.Closing
import Cadence.Proofs.Life.Contents
import Cadence.Proofs.Emission.Minutes
import Cadence.Proofs.Emission.Outcome
import Cadence.Proofs.Life.Law
import Cadence.Proofs.Life.Minutes
import Cadence.Proofs.Emission.Parted
import Cadence.Proofs.Life.Timing
import Cadence.Proofs.Life.Marker
import Cadence.Proofs.Life.Writers
import Cadence.Proofs.Life.Receipts
import Cadence.Proofs.Life.Redirection
import Cadence.Proofs.Emission.Moments
import Cadence.Proofs.Emission.Rationing
import Cadence.Proofs.Life.Budget
import Cadence.Proofs.Life.Chronicle
import Cadence.Proofs.Life.Fleet
import Cadence.Proofs.Json.Lexing
import Cadence.Proofs.Json.Passing
import Cadence.Proofs.Settings.Agreement
import Cadence.Proofs.Settings.Entries
import Cadence.Proofs.Json.Spelling
import Cadence.Proofs.Feed.Errand
import Cadence.Proofs.Feed.Counting
import Cadence.Proofs.Feed.Tapped
import Cadence.Proofs.Session.Sharing
import Cadence.Proofs.Session.Timekeeping
import Cadence.Proofs.Binary64.Value
import Cadence.Proofs.Binary64.Order
import Cadence.Proofs.Binary64.Magnitude
import Cadence.Proofs.Binary64.Nearest
import Cadence.Proofs.Binary64.Comparison
import Cadence.Proofs.Time.Seconds
import Cadence.Proofs.Time.Timers
import Cadence.Proofs.Life.Rates
import Cadence.Proofs.Life.Order
import Cadence.Proofs.Decimal.Canonical
import Cadence.Proofs.Decimal.Reading
import Cadence.Proofs.Decimal.Shortest
import Cadence.Proofs.Decimal.ReadBack
import Cadence.Proofs.Text.Said
import Cadence.Proofs.Text.Outlines
