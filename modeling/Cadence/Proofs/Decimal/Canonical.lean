import Cadence.Proofs.Decimal.Numerals
import Mathlib.Data.List.Basic
import Mathlib.Data.List.Induction

namespace Cadence.Decimal

theorem digit?_eq_some {c : Char} {d : Nat} : digit? c = some d ↔ d < 10 ∧ c = digitChar d := by
  constructor
  · intro read
    rw [digit?] at read
    split at read
    · rename_i within
      obtain ⟨low, high⟩ := within
      have low : 48 ≤ c.toNat := low
      have high : c.toNat ≤ 57 := high
      cases read
      refine ⟨by omega, ?_⟩
      rw [digitChar, Nat.add_sub_cancel' low, Char.ofNat_toNat]
    · cases read
  · rintro ⟨small, rfl⟩
    exact digit?_digitChar d small

theorem number?_append_single {cs : List Char} {c : Char} {n : Nat}
    (read : number? (cs ++ [c]) = some n) :
    ∃ m d, number? cs = some m ∧ d < 10 ∧ c = digitChar d ∧ n = 10 * m + d := by
  rw [number?, List.foldlM_append] at read
  obtain ⟨m, front, last⟩ := Option.bind_eq_some_iff.mp read
  simp only [List.foldlM_cons, List.foldlM_nil] at last
  obtain ⟨_, last, same⟩ := Option.bind_eq_some_iff.mp last
  obtain ⟨d, digit, rfl⟩ := Option.map_eq_some_iff.mp last
  obtain ⟨small, rfl⟩ := digit?_eq_some.mp digit
  cases same
  exact ⟨m, d, front, small, rfl, rfl⟩

theorem digits_of_number? {cs : List Char} {n : Nat} (read : number? cs = some n) :
    ∀ c ∈ cs, ∃ d < 10, c = digitChar d := by
  induction cs using List.reverseRecOn generalizing n with
  | nil => exact List.forall_mem_nil _
  | append_singleton cs c front =>
    obtain ⟨m, d, value, small, rfl, _⟩ := number?_append_single read
    intro c member
    rcases List.mem_append.mp member with before | last
    · exact front value c before
    · exact ⟨d, small, List.mem_singleton.mp last⟩

theorem tenTo_succ (n : Nat) : tenTo (n + 1) = 10 * tenTo n := Nat.pow_succ'

structure Padded (width n : Nat) (cs : List Char) : Prop where
  length : cs.length = width
  value : number? cs = some n

namespace Padded

variable {width n : Nat} {cs cs' : List Char}

theorem paddedDigits (width n : Nat) :
    Padded width (n % tenTo width) ((paddedDigits width n).map digitChar) := by
  induction width generalizing n with
  | zero => exact ⟨rfl, congrArg some (Nat.mod_one n).symm⟩
  | succ width front =>
    obtain ⟨length, value⟩ := front (n / 10)
    rw [Decimal.paddedDigits, List.map_append]
    constructor
    · rw [List.length_append, length]
      rfl
    · have split : n % tenTo (width + 1) = 10 * (n / 10 % tenTo width) + n % 10 := by
        rw [tenTo_succ, Nat.mod_mul, Nat.add_comm]
      rw [split]
      exact number?_snoc _ _ _ (Nat.mod_lt n (by decide)) value

theorem split (padded : Padded (width + 1) n cs) :
    ∃ front m d, Padded width m front ∧ d < 10 ∧ cs = front ++ [digitChar d] ∧
      n = 10 * m + d := by
  obtain ⟨length, value⟩ := padded
  cases cs using List.reverseRecOn with
  | nil => cases length
  | append_singleton front c =>
    obtain ⟨m, d, before, small, rfl, rfl⟩ := number?_append_single value
    rw [List.length_append, List.length_singleton, Nat.add_right_cancel_iff] at length
    exact ⟨front, m, d, ⟨length, before⟩, small, rfl, rfl⟩

theorem unique (padded : Padded width n cs) (padded' : Padded width n cs') : cs = cs' := by
  induction width generalizing n cs cs' with
  | zero =>
    rw [List.eq_nil_of_length_eq_zero padded.length, List.eq_nil_of_length_eq_zero padded'.length]
  | succ width alike =>
    obtain ⟨front, m, d, before, small, rfl, rfl⟩ := padded.split
    obtain ⟨front', m', d', before', small', rfl, same⟩ := padded'.split
    obtain rfl : m = m' := by omega
    obtain rfl : d = d' := by omega
    rw [alike before before']

end Padded

structure Canonical (n : Nat) (cs : List Char) : Prop where
  value : number? cs = some n
  nonempty : cs ≠ []
  leading : cs.head? = some '0' → cs = ['0']

theorem chars_ne_nil (n : Nat) : chars n ≠ [] := by
  by_cases below : n < 10
  · simp [chars, digits_below n below]
  · simp [chars, digits_above n below]

theorem chars_above {n : Nat} (above : ¬ n < 10) :
    chars n = chars (n / 10) ++ [digitChar (n % 10)] := by
  rw [chars, digits_above n above, List.map_append]
  rfl

theorem zero_of_head?_chars {n : Nat} (leading : (chars n).head? = some '0') : n = 0 := by
  induction n using digits.induct with
  | case1 n below =>
    have digit : ∀ d < 10, digitChar d = '0' → d = 0 := by decide
    rw [chars, digits_below n below] at leading
    exact digit n below (Option.some.inj leading)
  | case2 n above rest =>
    rw [chars_above above, List.head?_append_of_ne_nil _ (chars_ne_nil _)] at leading
    have := rest leading
    omega

namespace Canonical

theorem chars (n : Nat) : Canonical n (chars n) where
  value := number?_chars n
  nonempty := chars_ne_nil n
  leading leading := by
    rw [zero_of_head?_chars leading, Decimal.chars, digits_below 0 (by decide)]
    rfl

theorem eq_chars {n : Nat} {cs : List Char} (canonical : Canonical n cs) :
    cs = Decimal.chars n := by
  obtain ⟨value, nonempty, leading⟩ := canonical
  induction cs using List.reverseRecOn generalizing n with
  | nil => exact absurd rfl nonempty
  | append_singleton cs c front =>
    obtain ⟨m, d, before, small, rfl, rfl⟩ := number?_append_single value
    by_cases single : cs = []
    · subst single
      cases before
      rw [Decimal.chars, digits_below _ (by omega), Nat.mul_zero, Nat.zero_add]
      rfl
    · rw [List.head?_append_of_ne_nil _ single] at leading
      -- a zero in front would have to be the whole numeral
      have short : cs.head? ≠ some '0' := by
        intro zero
        have length := congrArg List.length (leading zero)
        have positive := List.length_pos_iff.mpr single
        rw [List.length_append, List.length_singleton, List.length_singleton] at length
        omega
      have spelled := front before single fun zero => absurd zero short
      have positive : m ≠ 0 := by
        rintro rfl
        rw [spelled, Decimal.chars, digits_below 0 (by decide)] at short
        exact short rfl
      have above : ¬ 10 * m + d < 10 := by omega
      have quotient : (10 * m + d) / 10 = m := by omega
      have rest : (10 * m + d) % 10 = d := by omega
      rw [chars_above above, quotient, rest, spelled]

theorem unique {n : Nat} {cs cs' : List Char} (canonical : Canonical n cs)
    (canonical' : Canonical n cs') : cs = cs' :=
  canonical.eq_chars.trans canonical'.eq_chars.symm

end Canonical

end Cadence.Decimal
