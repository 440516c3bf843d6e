namespace Cadence

inductive Outline
  | atom (text : String)
  | record (name : String) (fields : List (String × Outline))

namespace Outline

mutual

def line : Outline → String
  | .atom text => text
  | .record name [] => name
  | .record name (field :: fields) =>
    name ++ " \x7b " ++ lineField field ++ lineFields fields ++ " \x7d"

def lineField : String × Outline → String
  | (name, value) => name ++ ": " ++ value.line

def lineFields : List (String × Outline) → String
  | [] => ""
  | field :: fields => ", " ++ lineField field ++ lineFields fields

end

def indent (depth : Nat) : String := String.ofList (List.replicate (4 * depth) ' ')

mutual

def block (depth : Nat) : Outline → String
  | .atom text => text
  | .record name [] => name
  | .record name (field :: fields) =>
    name ++ " \x7b\n" ++ blockField (depth + 1) field ++ blockFields (depth + 1) fields ++
      indent depth ++ "\x7d"

def blockField (depth : Nat) : String × Outline → String
  | (name, value) => indent depth ++ name ++ ": " ++ value.block depth ++ ",\n"

def blockFields (depth : Nat) : List (String × Outline) → String
  | [] => ""
  | field :: fields => blockField depth field ++ blockFields depth fields

end

end Outline

end Cadence
