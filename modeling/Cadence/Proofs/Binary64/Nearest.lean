import Cadence.Proofs.Binary64.Order

namespace Cadence.Binary64

def magnitude (c : Nat) : ℚ := unitsOfCode c / unitsPerOne

/-- `c` is the code nearest to `q`, and even if another one is as near. Infinity takes part as if it
were the next double after the greatest one. -/
structure Nearest (q : ℚ) (c : Nat) : Prop where
  number : c ≤ infinityCode
  nearest : ∀ d ≤ infinityCode, |q - magnitude c| ≤ |q - magnitude d|
  even : ∀ d ≤ infinityCode, d ≠ c → |q - magnitude d| = |q - magnitude c| → Even c

theorem magnitude_strictMono : StrictMono magnitude := by
  intro c d below
  have units : (unitsOfCode c : ℚ) < unitsOfCode d := by
    exact_mod_cast unitsOfCode_strictMono below
  have one : (0 : ℚ) < unitsPerOne := by exact_mod_cast unitsPerOne_pos
  exact (div_lt_div_iff_of_pos_right one).mpr units

section

variable {num den c : Nat}

theorem nearestCode_congr {num' den' : Nat} (positive : 0 < den) (positive' : 0 < den')
    (same : num * den' = num' * den) : nearestCode num den = nearestCode num' den' :=
  (nearestCode_mono positive positive' same.le).antisymm
    (nearestCode_mono positive' positive same.ge)

/-- A quotient strictly between the midpoints on either side of a double is rounded to it. -/
theorem nearestCode_eq_of_near (positive : 0 < den) (some : 0 < c) (finite : c < infinityCode)
    (above : (unitsOfCode (c - 1) + unitsOfCode c) * den < 2 * num)
    (below : 2 * num < (unitsOfCode c + unitsOfCode (c + 1)) * den) : nearestCode num den = c := by
  have low : nearestCode num den ≤ c := (nearestCode_le_iff num c positive finite).mpr (.inl below)
  have high : ¬ nearestCode num den ≤ c - 1 := by
    rw [nearestCode_le_iff num (c - 1) positive (by omega), Nat.sub_add_cancel some]
    omega
  omega

theorem nearer_below {q a b : ℚ} (below : a < b) : |q - a| ≤ |q - b| ↔ 2 * q ≤ a + b := by
  constructor <;> intro near <;>
    rcases abs_cases (q - a) with ⟨left, _⟩ | ⟨left, _⟩ <;>
    rcases abs_cases (q - b) with ⟨right, _⟩ | ⟨right, _⟩ <;> linarith

theorem nearer_above {q a b : ℚ} (below : a < b) : |q - b| ≤ |q - a| ↔ a + b ≤ 2 * q := by
  constructor <;> intro near <;>
    rcases abs_cases (q - a) with ⟨left, _⟩ | ⟨left, _⟩ <;>
    rcases abs_cases (q - b) with ⟨right, _⟩ | ⟨right, _⟩ <;> linarith

theorem compare_midpoint (num c d : Nat) (positive : 0 < den) :
    (2 * ((num : ℚ) / den / unitsPerOne) ≤ magnitude c + magnitude d ↔
      2 * num ≤ (unitsOfCode c + unitsOfCode d) * den) ∧
    (magnitude c + magnitude d ≤ 2 * ((num : ℚ) / den / unitsPerOne) ↔
      (unitsOfCode c + unitsOfCode d) * den ≤ 2 * num) := by
  have one : (0 : ℚ) < unitsPerOne := by exact_mod_cast unitsPerOne_pos
  have scale : (0 : ℚ) < den := by exact_mod_cast positive
  rw [magnitude, magnitude, ← add_div, mul_div_assoc', div_le_div_iff_of_pos_right one,
    div_le_div_iff_of_pos_right one, mul_div_assoc', div_le_iff₀ scale, le_div_iff₀ scale]
  constructor <;> exact_mod_cast Iff.rfl

/-- A quotient is rounded to no code with a lesser one nearer to it; a tie makes the code even. -/
theorem lesser_beyond {d : Nat} (positive : 0 < den) (less : d < nearestCode num den) :
    magnitude d + magnitude (nearestCode num den) ≤ 2 * ((num : ℚ) / den / unitsPerOne) ∧
      (2 * ((num : ℚ) / den / unitsPerOne) ≤ magnitude d + magnitude (nearestCode num den) →
        Even (nearestCode num den)) := by
  have compare (c d : Nat) := compare_midpoint num c d positive
  have number := nearestCode_le_infinityCode num den
  -- all that is used of the code is how the quotient compares with the midpoint below it
  have before := nearestCode_le_iff num (nearestCode num den - 1) positive
  generalize (num : ℚ) / den / unitsPerOne = q at compare ⊢
  generalize nearestCode num den = c at *
  rw [Nat.sub_add_cancel (by omega)] at before
  have far : magnitude d ≤ magnitude (c - 1) := magnitude_strictMono.monotone (by omega)
  have side : ¬ c ≤ c - 1 := by omega
  rw [before (by omega), not_or, not_lt] at side
  have midpoint := (compare (c - 1) c).2.mpr side.1
  refine ⟨by linarith, fun tie => ?_⟩
  have reached := (compare (c - 1) c).1.mp (by linarith)
  have odd := side.2
  rw [Nat.even_iff]
  omega

theorem greater_beyond {d : Nat} (positive : 0 < den) (more : nearestCode num den < d)
    (number : d ≤ infinityCode) :
    2 * ((num : ℚ) / den / unitsPerOne) ≤ magnitude (nearestCode num den) + magnitude d ∧
      (magnitude (nearestCode num den) + magnitude d ≤ 2 * ((num : ℚ) / den / unitsPerOne) →
        Even (nearestCode num den)) := by
  have compare (c d : Nat) := compare_midpoint num c d positive
  have after := nearestCode_le_iff num (nearestCode num den) positive
  generalize (num : ℚ) / den / unitsPerOne = q at compare ⊢
  generalize nearestCode num den = c at *
  have far : magnitude (c + 1) ≤ magnitude d := magnitude_strictMono.monotone more
  have side := (after (by omega)).mp le_rfl
  have midpoint := (compare c (c + 1)).1.mpr (by omega)
  refine ⟨by linarith, fun tie => ?_⟩
  have reached := (compare c (c + 1)).2.mp (by linarith)
  rw [Nat.even_iff]
  omega

/-- Rounding gives the nearest code. Only the neighbours have to be compared: all others lie beyond
them. -/
theorem nearestCode_nearest (num : Nat) (positive : 0 < den) :
    Nearest ((num : ℚ) / den / unitsPerOne) (nearestCode num den) where
  number := nearestCode_le_infinityCode num den
  nearest := by
    intro d number
    rcases Nat.lt_trichotomy d (nearestCode num den) with less | rfl | more
    · exact (nearer_above (magnitude_strictMono less)).mpr (lesser_beyond positive less).1
    · exact le_rfl
    · exact (nearer_below (magnitude_strictMono more)).mpr (greater_beyond positive more number).1
  even := by
    intro d number other equal
    rcases Nat.lt_or_gt_of_ne other with less | more
    · have tie := (nearer_below (magnitude_strictMono less)).mp equal.le
      exact (lesser_beyond positive less).2 tie
    · have tie := (nearer_above (magnitude_strictMono more)).mp equal.le
      exact (greater_beyond positive more number).2 tie

end

end Cadence.Binary64
