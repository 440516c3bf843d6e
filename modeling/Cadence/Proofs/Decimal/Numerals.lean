import Cadence.Decimal.Fixed

namespace Cadence.Decimal

theorem digits_below (n : Nat) (below : n < 10) : digits n = [n] := by
  rw [digits, if_pos below]

theorem digits_above (n : Nat) (above : ¬ n < 10) : digits n = digits (n / 10) ++ [n % 10] := by
  rw [digits, if_neg above]

theorem lt_ten_of_mem_digits (n d : Nat) (member : d ∈ digits n) : d < 10 := by
  induction n using digits.induct with
  | case1 n below =>
    rw [digits_below n below, List.mem_singleton] at member
    omega
  | case2 n above rest =>
    rw [digits_above n above, List.mem_append, List.mem_singleton] at member
    rcases member with member | rfl
    · exact rest member
    · exact Nat.mod_lt n (by decide)

theorem lt_ten_of_mem_paddedDigits (width n d : Nat) (member : d ∈ paddedDigits width n) :
    d < 10 := by
  induction width generalizing n with
  | zero => cases member
  | succ width rest =>
    rw [paddedDigits, List.mem_append, List.mem_singleton] at member
    rcases member with member | rfl
    · exact rest (n / 10) member
    · exact Nat.mod_lt n (by decide)

theorem digit?_digitChar : ∀ d < 10, digit? (digitChar d) = some d := by decide

def number? (cs : List Char) : Option Nat :=
  cs.foldlM (fun n c => (digit? c).map (10 * n + ·)) 0

theorem number?_snoc (cs : List Char) (d n : Nat) (small : d < 10) (front : number? cs = some n) :
    number? (cs ++ [digitChar d]) = some (10 * n + d) := by
  rw [number?] at front ⊢
  rw [List.foldlM_append, front]
  simp [digit?_digitChar d small]

theorem number?_chars (n : Nat) : number? (chars n) = some n := by
  induction n using digits.induct with
  | case1 n below =>
    have single := number?_snoc [] n 0 below rfl
    rw [Nat.mul_zero, Nat.zero_add] at single
    rwa [chars, digits_below n below]
  | case2 n above rest =>
    have whole := number?_snoc _ (n % 10) _ (Nat.mod_lt n (by decide)) rest
    rw [Nat.div_add_mod] at whole
    rwa [chars, digits_above n above, List.map_append]

def numberChars : List Char :=
  ['0', '1', '2', '3', '4', '5', '6', '7', '8', '9', '-', '.', 'N', 'a', 'f', 'i', 'n']

theorem digitChar_mem : ∀ d < 10, digitChar d ∈ numberChars := by decide

theorem chars_subset (n : Nat) : chars n ⊆ numberChars := by
  intro c member
  obtain ⟨d, digit, rfl⟩ := List.mem_map.mp member
  exact digitChar_mem d (lt_ten_of_mem_digits n d digit)

theorem fixedMagnitude_subset (places units : Nat) : fixedMagnitude places units ⊆ numberChars := by
  intro c member
  rw [fixedMagnitude, List.mem_append, List.mem_cons] at member
  rcases member with whole | rfl | fraction
  · exact chars_subset _ whole
  · decide
  · obtain ⟨d, digit, rfl⟩ := List.mem_map.mp fraction
    exact digitChar_mem d (lt_ten_of_mem_paddedDigits _ _ d digit)

theorem fixedChars_subset (places : Nat) (x : Binary64) : fixedChars places x ⊆ numberChars := by
  rw [fixedChars]
  split
  · decide
  · apply List.append_subset.mpr
    constructor
    · split <;> decide
    · split
      · decide
      · exact fixedMagnitude_subset places x.units

end Cadence.Decimal
