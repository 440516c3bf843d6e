namespace Cadence

inductive Crash
  | countOverflow
  | instantOverflow
  | zeroStep
  | roomOverflow
  | raised (message : String)
deriving DecidableEq

def Crash.message : Crash → String
  | .countOverflow => "attempt to add with overflow"
  | .instantOverflow => "overflow when adding duration to instant"
  | .zeroStep => "assertion failed: step != 0"
  | .roomOverflow => "capacity overflow"
  | .raised message => message

/-- A crash stops an operation where it stands. What the operation did before stays done. -/
abbrev Attempt (α : Type) := Except Crash α

end Cadence
