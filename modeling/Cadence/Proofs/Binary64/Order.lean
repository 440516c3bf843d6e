import Cadence.Proofs.Binary64.Value
import Mathlib.Order.Monotone.Basic

namespace Cadence

theorem RoundsTo.mono {q r : ℚ} {z w : ℤ} (below : q ≤ r) (first : RoundsTo q z)
    (second : RoundsTo r w) : z ≤ w := by
  by_contra crossed
  have apart : (w : ℚ) < z := by exact_mod_cast not_le.mp crossed
  -- `q` is not below the midpoint of the two integers and `r` not above it
  have high : (w : ℚ) + z ≤ 2 * q := by
    have near := first.nearest w
    rcases abs_cases (q - z) with ⟨left, _⟩ | ⟨left, _⟩ <;>
      rcases abs_cases (q - w) with ⟨right, _⟩ | ⟨right, _⟩ <;> linarith
  have low : 2 * r ≤ (w : ℚ) + z := by
    have near := second.nearest z
    rcases abs_cases (r - z) with ⟨left, _⟩ | ⟨left, _⟩ <;>
      rcases abs_cases (r - w) with ⟨right, _⟩ | ⟨right, _⟩ <;> linarith
  have same : q = r := by linarith
  rw [same] at first
  exact crossed (first.unique second).le

theorem roundHalfEven_mono {num den num' den' : Nat} (positive : 0 < den) (positive' : 0 < den')
    (below : num * den' ≤ num' * den) : roundHalfEven num den ≤ roundHalfEven num' den' := by
  have quotients : (num : ℚ) / den ≤ num' / den' := by
    rw [div_le_div_iff₀ (by exact_mod_cast positive) (by exact_mod_cast positive')]
    exact_mod_cast below
  have rounded := RoundsTo.mono quotients (roundHalfEven_rounds num positive)
    (roundHalfEven_rounds num' positive')
  exact_mod_cast rounded

theorem roundHalfEven_mul (n : Nat) {den : Nat} (positive : 0 < den) :
    roundHalfEven (n * den) den = n := by
  have whole : n * den / den = n := Nat.mul_div_cancel n positive
  have rest : n * den % den = 0 := Nat.mul_mod_left n den
  simp [roundHalfEven, whole, rest, positive]

/-- Rounding stays at or below an integer up to the midpoint of it and the next, which goes to the
even one of the two. -/
theorem roundHalfEven_le_iff {num den n : Nat} (positive : 0 < den) :
    roundHalfEven num den ≤ n ↔
      2 * num < (2 * n + 1) * den ∨ 2 * num = (2 * n + 1) * den ∧ n % 2 = 0 := by
  have parts := Nat.div_add_mod num den
  have small := Nat.mod_lt num positive
  rw [roundHalfEven]
  generalize num / den = quotient at parts ⊢
  generalize num % den = rest at parts small ⊢
  have middle : (2 * n + 1) * den = 2 * (den * n) + den := by ring
  rcases Nat.lt_trichotomy quotient n with before | rfl | after
  · have apart := Nat.mul_le_mul_left den before
    rw [Nat.mul_succ] at apart
    split
    · omega
    · split <;> omega
  · split
    · omega
    · split <;> omega
  · have apart := Nat.mul_le_mul_left den after
    rw [Nat.mul_succ] at apart
    split
    · omega
    · split <;> omega

namespace Binary64

theorem binade_eq : binade = 2 ^ 52 := rfl

/-- A code `x` binades up stands for `x`, shifted; one with the leading one carried counts too. -/
theorem unitsOfCode_shifted {shift x : Nat} (low : shift = 0 ∨ binade ≤ x)
    (high : x ≤ 2 * binade) : unitsOfCode (shift * binade + x) = x * 2 ^ shift := by
  rw [binade_eq] at low high
  rcases Nat.lt_or_ge x (2 ^ 52) with small | large
  · have unshifted : shift = 0 := by omega
    subst unshifted
    rw [Nat.zero_mul, Nat.zero_add, unitsOfCode, binade_eq, if_pos small, Nat.pow_zero,
      Nat.mul_one]
  · rw [unitsOfCode, binade_eq, if_neg (by omega), Nat.shiftLeft_eq]
    rcases Nat.lt_or_ge x (2 * 2 ^ 52) with inside | carried
    · have exponent : (shift * 2 ^ 52 + x) / 2 ^ 52 - 1 = shift := by omega
      have leading : 2 ^ 52 + (shift * 2 ^ 52 + x) % 2 ^ 52 = x := by omega
      rw [exponent, leading]
    · have whole : x = 2 * 2 ^ 52 := by omega
      have exponent : (shift * 2 ^ 52 + x) / 2 ^ 52 - 1 = shift + 1 := by omega
      have leading : 2 ^ 52 + (shift * 2 ^ 52 + x) % 2 ^ 52 = 2 ^ 52 := by omega
      rw [exponent, leading, whole, Nat.pow_succ]
      ring

theorem exists_shifted (c : Nat) :
    ∃ shift x, c = shift * binade + x ∧ (shift = 0 ∨ binade ≤ x) ∧ x < 2 * binade := by
  rw [binade_eq]
  rcases Nat.lt_or_ge c (2 ^ 52) with small | large
  · exact ⟨0, c, by omega, by omega, by omega⟩
  · exact ⟨c / 2 ^ 52 - 1, 2 ^ 52 + c % 2 ^ 52, by omega, by omega, by omega⟩

theorem unitsOfCode_succ (c : Nat) :
    unitsOfCode (c + 1) = unitsOfCode c + 2 ^ (c / binade - 1) := by
  obtain ⟨shift, x, rfl, low, high⟩ := exists_shifted c
  have exponent : (shift * binade + x) / binade - 1 = shift := by
    rw [binade_eq] at low high ⊢
    omega
  rw [exponent, Nat.add_assoc, unitsOfCode_shifted (by omega) (by omega),
    unitsOfCode_shifted low high.le]
  ring

theorem unitsOfCode_strictMono : StrictMono unitsOfCode := by
  apply strictMono_nat_of_lt_succ
  intro c
  rw [unitsOfCode_succ]
  exact Nat.lt_add_of_pos_right (by positivity)

def dropped (num den : Nat) : Nat := (num / den).log2 - 52

theorem nearestCode_eq (num den : Nat) :
    nearestCode num den = min infinityCode
      (dropped num den * binade + roundHalfEven num (den <<< dropped num den)) := rfl

section

variable {num den num' den' : Nat}

theorem nearestCode_le_infinityCode (num den : Nat) : nearestCode num den ≤ infinityCode :=
  Nat.min_le_left _ _

theorem shifted_pos (positive : 0 < den) (shift : Nat) : 0 < den <<< shift := by
  rw [Nat.shiftLeft_eq]
  positivity

theorem rounded_le (positive : 0 < den) :
    roundHalfEven num (den <<< dropped num den) ≤ 2 * binade := by
  have below : num / den < 2 * binade * 2 ^ dropped num den := by
    have power : 2 * binade * 2 ^ dropped num den = 2 ^ (53 + dropped num den) := by
      rw [binade_eq, Nat.pow_add]
      rfl
    rw [power]
    refine Nat.lt_of_lt_of_le Nat.lt_log2_self (Nat.pow_le_pow_right two_pos ?_)
    rw [dropped]
    omega
  rw [Nat.div_lt_iff_lt_mul positive, Nat.mul_assoc, Nat.mul_comm (2 ^ _), ← Nat.shiftLeft_eq]
    at below
  have shifted := shifted_pos positive (dropped num den)
  rw [← roundHalfEven_mul (2 * binade) shifted]
  exact roundHalfEven_mono shifted shifted (Nat.mul_le_mul_right _ below.le)

theorem le_rounded (positive : 0 < den) (drops : 0 < dropped num den) :
    binade ≤ roundHalfEven num (den <<< dropped num den) := by
  have above : binade * 2 ^ dropped num den ≤ num / den := by
    have size : (num / den).log2 = 52 + dropped num den := by
      rw [dropped] at drops ⊢
      omega
    have nonzero : num / den ≠ 0 := by
      intro zero
      rw [zero, Nat.log2_zero] at size
      omega
    rw [binade_eq, ← Nat.pow_add, ← size]
    exact Nat.log2_self_le nonzero
  rw [Nat.le_div_iff_mul_le positive, Nat.mul_assoc, Nat.mul_comm (2 ^ _), ← Nat.shiftLeft_eq]
    at above
  have shifted := shifted_pos positive (dropped num den)
  rw [← roundHalfEven_mul binade shifted]
  exact roundHalfEven_mono shifted shifted (Nat.mul_le_mul_right _ above)

theorem dropped_mono (positive : 0 < den) (positive' : 0 < den')
    (below : num * den' ≤ num' * den) : dropped num den ≤ dropped num' den' := by
  have quotients : num / den ≤ num' / den' := by
    rw [Nat.le_div_iff_mul_le positive']
    apply Nat.le_of_mul_le_mul_right _ positive
    calc num / den * den' * den = num / den * den * den' := Nat.mul_right_comm _ _ _
      _ ≤ num * den' := Nat.mul_le_mul_right _ (Nat.div_mul_le_self num den)
      _ ≤ num' * den := below
  have logs : (num / den).log2 ≤ (num' / den').log2 := by
    rcases Nat.eq_zero_or_pos (num / den) with zero | nonzero
    · rw [zero, Nat.log2_zero]
      exact Nat.zero_le _
    · rw [Nat.le_log2 (by omega)]
      exact (Nat.log2_self_le nonzero.ne').trans quotients
  rw [dropped, dropped]
  omega

/-- Rounding keeps the order. Where more places are dropped, the greater quotient starts a binade
that the lesser one can at most complete. -/
theorem nearestCode_mono (positive : 0 < den) (positive' : 0 < den')
    (below : num * den' ≤ num' * den) : nearestCode num den ≤ nearestCode num' den' := by
  rw [nearestCode_eq, nearestCode_eq]
  apply min_le_min_left
  rcases (dropped_mono positive positive' below).eq_or_lt with same | more
  · rw [same]
    apply Nat.add_le_add_left
    apply roundHalfEven_mono (shifted_pos positive _) (shifted_pos positive' _)
    rw [Nat.shiftLeft_eq, Nat.shiftLeft_eq, ← Nat.mul_assoc, ← Nat.mul_assoc]
    exact Nat.mul_le_mul_right _ below
  · have high : roundHalfEven num (den <<< dropped num den) ≤ 2 * binade := rounded_le positive
    have low := le_rounded positive' (Nat.zero_lt_of_lt more)
    rw [binade_eq] at high low ⊢
    omega

theorem dropped_eq {shift x : Nat} (positive : 0 < den) (low : shift = 0 ∨ binade ≤ x)
    (high : x < 2 * binade) (above : x * 2 ^ shift * den ≤ num)
    (below : num < (x + 1) * 2 ^ shift * den) : dropped num den = shift := by
  have least : x * 2 ^ shift ≤ num / den := (Nat.le_div_iff_mul_le positive).mpr above
  have most : num / den < 2 ^ (52 + shift + 1) := by
    refine ((Nat.div_lt_iff_lt_mul positive).mpr below).trans_le ?_
    rw [Nat.add_right_comm, Nat.pow_add]
    exact Nat.mul_le_mul_right _ high
  rcases Nat.eq_zero_or_pos shift with unshifted | shifted
  · subst unshifted
    rcases Nat.eq_zero_or_pos (num / den) with zero | nonzero
    · rw [dropped, zero, Nat.log2_zero]
    · have size := (Nat.log2_lt nonzero.ne').mpr most
      rw [dropped]
      omega
  · have leading : 2 ^ (52 + shift) ≤ num / den := by
      refine le_trans ?_ least
      rw [Nat.pow_add]
      exact Nat.mul_le_mul_right _ (by rw [binade_eq] at low; omega)
    have nonzero : num / den ≠ 0 := (Nat.lt_of_lt_of_le (by positivity) leading).ne'
    have size : (num / den).log2 = 52 + shift := (Nat.log2_eq_iff nonzero).mpr ⟨leading, most⟩
    rw [dropped, size, Nat.add_sub_cancel_left]

/-- A quotient that is a double is left as it is. -/
theorem nearestCode_units {c : Nat} (finite : c ≤ infinityCode) (positive : 0 < den) :
    nearestCode (unitsOfCode c * den) den = c := by
  obtain ⟨shift, x, rfl, low, high⟩ := exists_shifted c
  rw [unitsOfCode_shifted low high.le]
  have place : dropped (x * 2 ^ shift * den) den = shift := by
    apply dropped_eq positive low high le_rfl
    exact Nat.mul_lt_mul_of_pos_right (Nat.mul_lt_mul_of_pos_right (Nat.lt_succ_self x)
      (by positivity)) positive
  rw [nearestCode_eq, place, Nat.mul_assoc, Nat.mul_comm (2 ^ shift), ← Nat.shiftLeft_eq,
    roundHalfEven_mul x (shifted_pos positive shift), min_eq_right finite]

/-- A quotient is rounded to a double or below up to the midpoint of it and the next greater one,
which goes to the even one of the two. -/
theorem nearestCode_le_iff (num c : Nat) (positive : 0 < den) (finite : c < infinityCode) :
    nearestCode num den ≤ c ↔
      2 * num < (unitsOfCode c + unitsOfCode (c + 1)) * den ∨
        2 * num = (unitsOfCode c + unitsOfCode (c + 1)) * den ∧ c % 2 = 0 := by
  have next : unitsOfCode c < unitsOfCode (c + 1) := unitsOfCode_strictMono (Nat.lt_succ_self c)
  have apart := Nat.mul_lt_mul_of_pos_right next positive
  rw [Nat.add_mul]
  rcases Nat.lt_or_ge num (unitsOfCode c * den) with before | after
  · have low : nearestCode num den ≤ c := by
      refine (nearestCode_mono positive positive ?_).trans
        (nearestCode_units finite.le positive).le
      exact Nat.mul_le_mul_right den before.le
    exact iff_of_true low (by omega)
  rcases Nat.lt_or_ge num (unitsOfCode (c + 1) * den) with between | beyond
  · obtain ⟨shift, x, rfl, low, high⟩ := exists_shifted c
    rw [Nat.add_assoc, unitsOfCode_shifted low high.le,
      unitsOfCode_shifted (by omega) (by omega)] at *
    have middle : x * 2 ^ shift * den + (x + 1) * 2 ^ shift * den =
        (2 * x + 1) * (den <<< shift) := by
      rw [Nat.shiftLeft_eq]
      ring
    have parity : (shift * binade + x) % 2 = x % 2 := by
      rw [binade_eq]
      omega
    rw [nearestCode_eq, dropped_eq positive low high after between, middle, parity,
      ← roundHalfEven_le_iff (shifted_pos positive shift), min_le_iff,
      or_iff_right (not_le.mpr finite), Nat.add_le_add_iff_left]
  · have high : c + 1 ≤ nearestCode num den := by
      refine (nearestCode_units (Nat.succ_le_of_lt finite) positive).ge.trans
        (nearestCode_mono positive positive ?_)
      exact Nat.mul_le_mul_right den beyond
    exact iff_of_false (by omega) (by omega)

/-- A quotient below the midpoint of a double and the next greater one rounds to the double at
most. -/
theorem nearestCode_le_of_near {c : Nat} (positive : 0 < den)
    (near : 2 * num < (unitsOfCode c + unitsOfCode (c + 1)) * den) : nearestCode num den ≤ c := by
  rcases Nat.lt_or_ge c infinityCode with finite | huge
  · exact (nearestCode_le_iff num c positive finite).mpr (.inl near)
  · exact (nearestCode_le_infinityCode num den).trans huge

end

/-- A number of at most 53 binary digits, followed by zeros, is the magnitude of a code. -/
theorem exists_code {m : Nat} (short : m < 2 * binade) (zeros : Nat) :
    ∃ c, unitsOfCode c = m * 2 ^ zeros := by
  induction zeros generalizing m with
  | zero =>
    refine ⟨m, ?_⟩
    have code := unitsOfCode_shifted (.inl rfl) short.le
    rwa [Nat.zero_mul, Nat.zero_add] at code
  | succ zeros rest =>
    -- a short enough number takes in one of the zeros
    rcases Nat.lt_or_ge m binade with room | full
    · obtain ⟨c, units⟩ := rest (m := m * 2) (by omega)
      refine ⟨c, units.trans ?_⟩
      ring
    · exact ⟨_, unitsOfCode_shifted (.inr full) short.le⟩

end Binary64

end Cadence
