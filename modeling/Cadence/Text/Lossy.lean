namespace Cadence

def utf8 (s : String) : List UInt8 := s.toList.flatMap String.utf8EncodeChar

namespace Lossy

def replacement : Char := '\uFFFD'

structure Partial where
  bits : Nat
  missing : Nat
  low : Nat
  high : Nat
deriving DecidableEq

/-- A byte at the start of a character. The range of the second byte shuts out encodings that are
longer than necessary, the surrogates, and everything beyond the last code point. -/
def begin (b : UInt8) : Except (Option Char) Partial :=
  let n := b.toNat
  if n < 0x80 then .error (some (Char.ofNat n))
  else if n < 0xC2 then .error none
  else if n < 0xE0 then .ok ⟨n - 0xC0, 1, 0x80, 0xBF⟩
  else if n = 0xE0 then .ok ⟨0, 2, 0xA0, 0xBF⟩
  else if n = 0xED then .ok ⟨0xD, 2, 0x80, 0x9F⟩
  else if n < 0xF0 then .ok ⟨n - 0xE0, 2, 0x80, 0xBF⟩
  else if n = 0xF0 then .ok ⟨0, 3, 0x90, 0xBF⟩
  else if n < 0xF4 then .ok ⟨n - 0xF0, 3, 0x80, 0xBF⟩
  else if n = 0xF4 then .ok ⟨4, 3, 0x80, 0x8F⟩
  else .error none

structure Decoder where
  done : String
  pending : Option Partial

def Decoder.empty : Decoder := ⟨"", none⟩

def Decoder.beginning (done : String) (b : UInt8) : Decoder :=
  match begin b with
  | .ok p => ⟨done, some p⟩
  | .error c? => ⟨done.push (c?.getD replacement), none⟩

def Decoder.feed (d : Decoder) (b : UInt8) : Decoder :=
  match d.pending with
  | none => .beginning d.done b
  | some p =>
    if p.low ≤ b.toNat ∧ b.toNat ≤ p.high then
      let bits := p.bits * 64 + b.toNat % 64
      match p.missing with
      | 0 | 1 => ⟨d.done.push (Char.ofNat bits), none⟩
      | missing + 1 => ⟨d.done, some ⟨bits, missing, 0x80, 0xBF⟩⟩
    else .beginning (d.done.push replacement) b

def Decoder.finish (d : Decoder) : String :=
  match d.pending with
  | none => d.done
  | some _ => d.done.push replacement

/-- The text of bytes that need not be one: each longest run of bytes that begins a character
without completing it, and each byte that cannot begin one, becomes one replacement character. -/
def decode (bytes : List UInt8) : String := (bytes.foldl Decoder.feed .empty).finish

end Lossy

end Cadence
