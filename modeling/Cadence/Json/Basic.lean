import Cadence.Binary64.Basic
import Cadence.Keyed

namespace Cadence

inductive Json
  | null
  | bool (b : Bool)
  | integer (n : Int)
  | real (x : Binary64)
  | string (s : String)
  | array (items : List Json)
  | object (members : List (String × Json))

namespace Json

def ofMembers (members : List (String × Json)) : Json :=
  .object (Keyed.ofList members)

def get? (key : String) : Json → Option Json
  | .object members => Keyed.get? key members
  | _ => none

def field? (key : String) (v : Json) : Option Json :=
  match v.get? key with
  | some .null | none => none
  | some value => some value

mutual

def same : Json → Json → Bool
  | .null, .null => true
  | .bool a, .bool b => a == b
  | .integer m, .integer n => m == n
  | .real x, .real y => x.equal y
  | .string s, .string t => s == t
  | .array vs, .array ws => sameItems vs ws
  | .object vs, .object ws => sameMembers vs ws
  | _, _ => false

def sameItems : List Json → List Json → Bool
  | [], [] => true
  | v :: vs, w :: ws => same v w && sameItems vs ws
  | _, _ => false

def sameMembers : List (String × Json) → List (String × Json) → Bool
  | [], [] => true
  | (k, v) :: vs, (l, w) :: ws => k == l && same v w && sameMembers vs ws
  | _, _ => false

end

end Json

end Cadence
