import Cadence.Json.Tree
import Cadence.Settings.Basic

namespace Cadence.Settings

open Json (Token Tree Letter)

inductive ReadError
  | malformed
  | data (e : DataError)

def intervalFront : List Token → Except ReadError (UInt64 × List Token)
  | .openBracket :: _ => .error (.data (.wrongType .sequence .interval))
  | .openBrace :: _ => .error (.data (.wrongType .map .interval))
  | t :: rest =>
    match t.scalar? with
    | none => .error .malformed
    | some v =>
      match intervalOf v with
      | .ok n => .ok (n, rest)
      | .error e => .error (.data e)
  | [] => .error .malformed

def ended (found : Option UInt64) : List Token → Except ReadError Settings
  | [] => .ok (ofFound found)
  | _ => .error .malformed

/-- The member at the front of a list of tokens. Its value counts if its key is that of the
interval, and a second such key is refused before its value is read. -/
def memberFront (found : Option UInt64) :
    List Token → Except ReadError (Option UInt64 × List Token)
  | .string letters :: rest =>
    match Letter.text? letters with
    | none => .error .malformed
    | some key =>
      if String.ofList key = intervalKey then
        if found.isSome then .error (.data .repeatedInterval)
        else match rest with
          | .colon :: rest => (intervalFront rest).map fun (n, rest) => (some n, rest)
          | _ => .error .malformed
      else match rest with
        | .colon :: rest =>
          match Tree.ofTokens? rest with
          | some (_, rest) => .ok (found, rest)
          | none => .error .malformed
        | _ => .error .malformed
  | _ => .error .malformed

/-- The members of an object up to the end of the text. Each takes a token, so the number of tokens
is fuel enough. -/
def members : Nat → Option UInt64 → List Token → Except ReadError Settings
  | 0, _, _ => .error .malformed
  | fuel + 1, found, tokens =>
    match memberFront found tokens with
    | .ok (found, .comma :: rest) => members fuel found rest
    | .ok (found, .closeBrace :: rest) => ended found rest
    | .ok _ => .error .malformed
    | .error e => .error e

def ofTokens : List Token → Except ReadError Settings
  | .openBrace :: .closeBrace :: rest => ended none rest
  | .openBrace :: rest => members rest.length none rest
  | .openBracket :: .closeBracket :: rest => ended none rest
  | .openBracket :: rest =>
    match intervalFront rest with
    | .ok (n, .closeBracket :: rest) => ended (some n) rest
    | .ok _ => .error .malformed
    | .error e => .error e
  | t :: _ =>
    match t.scalar? with
    | some v => .error (.data (.wrongType (.ofJson v) .settings))
    | none => .error .malformed
  | [] => .error .malformed

def ofText (text : String) : Except ReadError Settings := ofTokens (Json.tokens text)

end Cadence.Settings
