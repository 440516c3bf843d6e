import Cadence.Session.Script
import Cadence.Settings.Basic
import Cadence.Timer

namespace Cadence.Session

inductive MeterPlan
  | onClock (interval : UInt64) (clock : String) (sink : Option String)
  | onProcess (interval : UInt64) (sink : Option String)

inductive Parting
  | scope
  | unwinding
  | thread (n : UInt64)

inductive NamedCue
  | item (v : Json)
  | gap
  | advance (clock : String) (d : Span)
  | crash (message : String)

inductive Command
  | makeManual (clock : String)
  | makeScripted (clock : String) (now step : Span)
  | shareClock (clock name : String)
  | advance (clock : String) (d : Span)
  | setClock (clock : String) (target : Span)
  | readClock (clock : String)
  | makeSink (sink : String) (outlet : Outlet)
  | setFaults (sink : String) (faults : Faults)
  | shareSink (sink name : String)
  | write (sink : String) (bytes : List UInt8)
  | contents (sink : String)
  | clear (sink : String)
  | makeMeter (meter : String) (plan : MeterPlan)
  | increment (meter : String) (times : Nat)
  | incrementBy (meter : String) (n : UInt64)
  | report (meter : String)
  | close (meter : String)
  | elapsed (meter : String)
  | describe (meter : String)
  | redirect (meter : String) (sink : Option String) (farewell : Option String)
  | retire (meter : String) (parting : Parting)
  | feed (meter : String) (cues : List NamedCue) (hint : Option Hint) (use : Use)
  | feedBoth (inner outer : String) (cues : List NamedCue) (hint : Option Hint) (n : Nat)
  | describeTap (meter : String) (cues : Nat)
  | makeTimer (timer : String) (clock : Option String) (started : Bool)
  | shareTimer (timer name : String)
  | restart (timer : String)
  | isStarted (timer : String)
  | seconds (timer : String)
  | timerElapsed (timer : String)

inductive Problem
  | senseless
  | setup (e : SetupError)
  | crash (c : Crash)

inductive Reply
  | nothing
  | flag (b : Bool)
  | number (n : Nat)
  | span (d : Span)
  | real (x : Binary64)
  | interval (n : UInt64)
  | report (r : Report)
  | maskedReport (count : UInt64) (text : String)
  | contents (text : String) (bytes : Option Nat) (isEmpty : Bool)
  | outline (o : Outline)
  | previous (b : Bool)
  | value (v : Json)

end Cadence.Session
