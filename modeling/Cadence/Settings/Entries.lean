import Cadence.Settings.Basic

namespace Cadence.Settings

def intervalAmong (found : Option UInt64) :
    List (String × Json) → Except DataError (Option UInt64)
  | [] => .ok found
  | (key, value) :: entries =>
    if key = intervalKey then
      if found.isSome then .error .repeatedInterval
      else match intervalOf value with
        | .ok n => intervalAmong (some n) entries
        | .error e => .error e
    else intervalAmong found entries

def ofEntries (entries : List (String × Json)) : Except DataError Settings :=
  (intervalAmong none entries).map ofFound

def ofJson : Json → Except DataError Settings
  | .object members => ofEntries members
  | .array [] => .ok standard
  | .array (item :: items) =>
    match intervalOf item with
    | .error e => .error e
    | .ok n => if items.isEmpty then .ok ⟨n⟩ else .error (.tooLong (items.length + 1))
  | v => .error (.wrongType (.ofJson v) .settings)

end Cadence.Settings
