import Cadence.Proofs.Emission.Minutes

namespace Cadence

inductive Moment (κ : Type)
  | byte (b : UInt8)
  | flush
  | read (clock : κ) (now : Instant)
  | log (event : Event)

variable {κ δ : Type}

def Dealing.moments : Dealing κ δ → List (Moment κ)
  | .read clock now => [.read clock now]
  | .write _ bytes reply => (reply.taken bytes).map .byte
  | .flush _ _ => [.flush]
  | .log e => if e.level = .warn then [] else [.log e]

def moments (minutes : List (Dealing κ δ)) : List (Moment κ) := minutes.flatMap Dealing.moments

@[simp] theorem moments_append (first second : List (Dealing κ δ)) :
    moments (first ++ second) = moments first ++ moments second :=
  List.flatMap_append

theorem moments_log {e : Event} (quiet : e.level ≠ .warn) :
    moments [(.log e : Dealing κ δ)] = [.log e] := by
  simp [moments, Dealing.moments, quiet]

def Moment.byte? : Moment κ → Option UInt8
  | .byte b => some b
  | _ => none

def delivered (shown : List (Moment κ)) : List UInt8 := shown.filterMap Moment.byte?

@[simp] theorem delivered_append (first second : List (Moment κ)) :
    delivered (first ++ second) = delivered first ++ delivered second :=
  List.filterMap_append

@[simp] theorem delivered_bytes (bytes : List UInt8) :
    delivered (bytes.map .byte : List (Moment κ)) = bytes := by
  induction bytes with
  | nil => rfl
  | cons b bytes rest => exact congrArg (b :: ·) rest

theorem delivered_moments (minutes : List (Dealing κ δ)) :
    delivered (moments minutes) = taken minutes := by
  induction minutes with
  | nil => rfl
  | cons dealing minutes rest =>
    have first : delivered dealing.moments = dealing.taken := by
      cases dealing with
      | write destination bytes reply => exact delivered_bytes _
      | log e =>
        simp only [Dealing.moments]
        split <;> rfl
      | _ => rfl
    change delivered (dealing.moments ++ moments minutes) = dealing.taken ++ taken minutes
    rw [delivered_append, first, rest]

def flushPoints (k : Nat) : List (Moment κ) → List Nat
  | [] => []
  | .byte _ :: shown => flushPoints (k + 1) shown
  | .flush :: shown => k :: flushPoints k shown
  | .read _ _ :: shown | .log _ :: shown => flushPoints k shown

/-- Of moments after `k` bytes, those that a writer sees which takes `n` bytes in all: a byte if it
is among the first `n`, and a flush if every byte before it is. -/
def upTo (n k : Nat) : List (Moment κ) → List (Moment κ)
  | [] => []
  | .byte b :: shown => if k < n then .byte b :: upTo n (k + 1) shown else upTo n (k + 1) shown
  | .flush :: shown => if k ≤ n then .flush :: upTo n k shown else upTo n k shown
  | .read clock now :: shown => .read clock now :: upTo n k shown
  | .log e :: shown => .log e :: upTo n k shown

theorem length_delivered_byte (b : UInt8) (shown : List (Moment κ)) :
    (delivered (.byte b :: shown)).length = (delivered shown).length + 1 := rfl

theorem flushPoints_append (k : Nat) (first second : List (Moment κ)) :
    flushPoints k (first ++ second) =
      flushPoints k first ++ flushPoints (k + (delivered first).length) second := by
  induction first generalizing k with
  | nil => rfl
  | cons moment first rest =>
    cases moment with
    | byte b =>
      have later := rest (k + 1)
      rw [length_delivered_byte]
      rwa [Nat.add_right_comm, Nat.add_assoc] at later
    | flush => exact congrArg (k :: ·) (rest k)
    | read clock now => exact rest k
    | log e => exact rest k

@[simp] theorem flushPoints_bytes (k : Nat) (bytes : List UInt8) :
    flushPoints k (bytes.map .byte : List (Moment κ)) = [] := by
  induction bytes generalizing k with
  | nil => rfl
  | cons b bytes rest => exact rest (k + 1)

theorem upTo_append (n k : Nat) (first second : List (Moment κ)) :
    upTo n k (first ++ second) =
      upTo n k first ++ upTo n (k + (delivered first).length) second := by
  induction first generalizing k with
  | nil => rfl
  | cons moment first rest =>
    cases moment with
    | byte b =>
      have later := rest (k + 1)
      rw [length_delivered_byte, Nat.add_comm _ 1, ← Nat.add_assoc]
      simp only [List.cons_append, upTo, later]
      split <;> rfl
    | flush =>
      simp only [List.cons_append, upTo, rest k]
      split <;> rfl
    | read clock now => exact congrArg (Moment.read clock now :: ·) (rest k)
    | log e => exact congrArg (Moment.log e :: ·) (rest k)

theorem upTo_bytes (n k : Nat) (bytes : List UInt8) :
    upTo n k (bytes.map .byte : List (Moment κ)) = (bytes.take (n - k)).map .byte := by
  induction bytes generalizing k with
  | nil => simp [upTo]
  | cons b bytes rest =>
    rw [List.map_cons, upTo, rest]
    split
    · rename_i room
      have more : n - k = n - (k + 1) + 1 := by omega
      rw [more, List.take_succ_cons, List.map_cons]
    · rename_i full
      have none : n - k = 0 := by omega
      have none' : n - (k + 1) = 0 := by omega
      rw [none, none', List.take_zero, List.take_zero]

theorem upTo_text (n k : Nat) (text : List UInt8) :
    upTo n k (text.map .byte ++ [.flush] : List (Moment κ)) =
      (text.take (n - k)).map .byte ++ if k + text.length ≤ n then [.flush] else [] := by
  rw [upTo_append, upTo_bytes, delivered_bytes]
  rfl

theorem delivered_upTo (n k : Nat) (shown : List (Moment κ)) :
    delivered (upTo n k shown) = (delivered shown).take (n - k) := by
  induction shown generalizing k with
  | nil => simp [delivered, upTo]
  | cons moment shown rest =>
    cases moment with
    | byte b =>
      change delivered (upTo n k (.byte b :: shown)) = (b :: delivered shown).take (n - k)
      rw [upTo]
      split
      · rename_i room
        have more : n - k = n - (k + 1) + 1 := by omega
        rw [more, List.take_succ_cons, ← rest (k + 1)]
        rfl
      · rename_i full
        have none : n - k = 0 := by omega
        have none' : n - (k + 1) = 0 := by omega
        rw [rest, none, none', List.take_zero, List.take_zero]
    | flush =>
      rw [upTo]
      split <;> exact rest k
    | read clock now => exact rest k
    | log e => exact rest k

/-- Beyond its bytes a writer sees neither a byte nor a flush. -/
theorem flushPoints_upTo_beyond {n k : Nat} (beyond : n < k) (j : Nat)
    (shown : List (Moment κ)) : flushPoints j (upTo n k shown) = [] := by
  induction shown generalizing j k with
  | nil => rfl
  | cons moment shown rest =>
    cases moment with
    | byte b =>
      rw [upTo, if_neg (by omega)]
      exact rest (by omega) j
    | flush =>
      rw [upTo, if_neg (by omega)]
      exact rest beyond j
    | read clock now => exact rest beyond j
    | log e => exact rest beyond j

theorem le_of_mem_flushPoints {k p : Nat} {shown : List (Moment κ)}
    (member : p ∈ flushPoints k shown) : k ≤ p := by
  induction shown generalizing k with
  | nil => cases member
  | cons moment shown rest =>
    cases moment with
    | byte b => exact Nat.le_of_succ_le (rest member)
    | flush =>
      rcases List.mem_cons.mp member with here | later
      · exact Nat.le_of_eq here.symm
      · exact rest later
    | read clock now => exact rest member
    | log e => exact rest member

theorem flushPoints_upTo {n k : Nat} (room : k ≤ n) (shown : List (Moment κ)) :
    flushPoints k (upTo n k shown) = (flushPoints k shown).filter (· ≤ n) := by
  induction shown generalizing k with
  | nil => rfl
  | cons moment shown rest =>
    cases moment with
    | byte b =>
      rw [upTo]
      split
      · rename_i more
        exact rest more
      · rename_i full
        have beyond : n < k + 1 := by omega
        have late : (flushPoints (k + 1) shown).filter (· ≤ n) = [] := by
          rw [List.filter_eq_nil_iff]
          intro p member inside
          have after := le_of_mem_flushPoints member
          have inside := of_decide_eq_true inside
          omega
        rw [flushPoints_upTo_beyond beyond]
        exact late.symm
    | flush =>
      simp [upTo, flushPoints, room, rest room]
    | read clock now => exact rest room
    | log e => exact rest room

end Cadence
