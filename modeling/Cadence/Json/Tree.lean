import Cadence.Json.Token

namespace Cadence.Json

inductive Tree
  | scalar (t : Token)
  | array (items : List Tree)
  | object (members : List (List Letter × Tree))

namespace Tree

mutual

/-- The value at the front of a list of tokens. Every call but the last of a list takes a token, so
twice the number of tokens is fuel enough. -/
def front? : Nat → List Token → Option (Tree × List Token)
  | 0, _ => none
  | fuel + 1, tokens =>
    match tokens with
    | .openBracket :: .closeBracket :: rest => some (.array [], rest)
    | .openBracket :: rest => itemsFront? fuel [] rest
    | .openBrace :: .closeBrace :: rest => some (.object [], rest)
    | .openBrace :: rest => membersFront? fuel [] rest
    | .null :: rest => some (.scalar .null, rest)
    | .bool b :: rest => some (.scalar (.bool b), rest)
    | .numeral n :: rest => some (.scalar (.numeral n), rest)
    | .string letters :: rest => some (.scalar (.string letters), rest)
    | _ => none

def itemsFront? : Nat → List Tree → List Token → Option (Tree × List Token)
  | 0, _, _ => none
  | fuel + 1, read, tokens =>
    match front? fuel tokens with
    | some (item, .comma :: rest) => itemsFront? fuel (item :: read) rest
    | some (item, .closeBracket :: rest) => some (.array (item :: read).reverse, rest)
    | _ => none

def membersFront? : Nat → List (List Letter × Tree) → List Token → Option (Tree × List Token)
  | 0, _, _ => none
  | fuel + 1, read, tokens =>
    match tokens with
    | .string key :: .colon :: rest =>
      match front? fuel rest with
      | some (value, .comma :: rest) => membersFront? fuel ((key, value) :: read) rest
      | some (value, .closeBrace :: rest) => some (.object ((key, value) :: read).reverse, rest)
      | _ => none
    | _ => none

end

def ofTokens? (tokens : List Token) : Option (Tree × List Token) :=
  front? (2 * tokens.length) tokens

mutual

def value? : Tree → Option Json
  | .scalar t => t.scalar?
  | .array items => (itemValues? items).map .array
  | .object members => (memberValues? members).map ofMembers

def itemValues? : List Tree → Option (List Json)
  | [] => some []
  | item :: items => do
    let v ← item.value?
    let vs ← itemValues? items
    return v :: vs

def memberValues? : List (List Letter × Tree) → Option (List (String × Json))
  | [] => some []
  | (letters, value) :: members => do
    let key ← Letter.text? letters
    let v ← value.value?
    let vs ← memberValues? members
    return (String.ofList key, v) :: vs

end

end Tree

mutual

def Tree.depth : Tree → Nat
  | .scalar _ => 0
  | .array items => itemsDepth items + 1
  | .object members => membersDepth members + 1

def Tree.itemsDepth : List Tree → Nat
  | [] => 0
  | item :: items => max item.depth (itemsDepth items)

def Tree.membersDepth : List (List Letter × Tree) → Nat
  | [] => 0
  | (_, value) :: members => max value.depth (membersDepth members)

end

def greatestDepth : Nat := 127

def parse? (text : String) : Option Json :=
  match Tree.ofTokens? (tokens text) with
  | some (tree, []) => if tree.depth ≤ greatestDepth then tree.value? else none
  | _ => none

end Cadence.Json
