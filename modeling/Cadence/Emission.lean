import Cadence.Surroundings
import Cadence.Text.Lossy

namespace Cadence

variable {σ κ δ : Type} [Surroundings σ κ δ]

def writeAll (d : Option δ) (bytes : List UInt8) (s : σ) : Delivery × σ :=
  match bytes with
  | [] => (.done, s)
  | b :: rest =>
    match _h : Surroundings.write d (b :: rest) s with
    | (.accepted 0, s') => (.failed .nothingAccepted, s')
    | (.accepted (n + 1), s') => writeAll d (rest.drop n) s'
    | (.interrupted, s') => writeAll d (b :: rest) s'
    | (.failed fault, s') => (.failed fault, s')
    | (.crashed crash, s') => (.crashed crash, s')
termination_by (bytes.length, Surroundings.patience d s)
decreasing_by
  · apply Prod.Lex.left
    simp only [List.length_drop, List.length_cons]
    omega
  · apply Prod.Lex.right
    have tired := Surroundings.patience_write d (b :: rest) s
    rw [_h] at tired
    exact tired rfl

@[simp] theorem writeAll_nil (d : Option δ) (s : σ) : writeAll d [] s = (.done, s) := by
  rw [writeAll]

theorem writeAll_cons (d : Option δ) (b : UInt8) (rest : List UInt8) (s : σ) :
    writeAll d (b :: rest) s =
      match Surroundings.write d (b :: rest) s with
      | (.accepted 0, s') => (.failed .nothingAccepted, s')
      | (.accepted (n + 1), s') => writeAll d (rest.drop n) s'
      | (.interrupted, s') => writeAll d (b :: rest) s'
      | (.failed fault, s') => (.failed fault, s')
      | (.crashed crash, s') => (.crashed crash, s') := by
  rw [writeAll]
  split <;> simp_all

def writePieces (d : Option δ) : List String → σ → Delivery × σ
  | [], s => (.done, s)
  | piece :: pieces, s =>
    match writeAll d (utf8 piece) s with
    | (.done, s) => writePieces d pieces s
    | ended => ended

def emit (d : Option δ) (pieces : List String) (s : σ) : Delivery × σ :=
  match writePieces d pieces s with
  | (.done, s) => Surroundings.flush d s
  | ended => ended

end Cadence
