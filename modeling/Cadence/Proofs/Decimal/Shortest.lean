import Cadence.Decimal.Shortest
import Cadence.Proofs.Binary64.Nearest
import Cadence.Proofs.Decimal.Canonical

namespace Cadence.Decimal

open Binary64

theorem cast_tenTo (n : Nat) : (tenTo n : ℚ) = 10 ^ n := by
  rw [tenTo, Nat.pow_eq, Nat.cast_pow, Nat.cast_ofNat]

theorem tenTo_pos (n : Nat) : 0 < tenTo n := Nat.pow_pos (by decide)

theorem cast_tenTo_toNat (e : ℤ) : (tenTo e.toNat : ℚ) = 10 ^ e * tenTo (-e).toNat := by
  rw [cast_tenTo, cast_tenTo, ← zpow_natCast, ← zpow_natCast, ← zpow_add₀ (by norm_num)]
  congr 1
  omega

namespace Scientific

def value (s : Scientific) : ℚ := s.significand * 10 ^ s.exponent

def code (s : Scientific) : Nat :=
  nearestCode (unitsPerOne * tenTo s.exponent.toNat * s.significand) (tenTo (-s.exponent).toNat)

theorem quotient_eq (s : Scientific) :
    ((unitsPerOne * tenTo s.exponent.toNat * s.significand : Nat) : ℚ) / tenTo (-s.exponent).toNat =
      s.value * unitsPerOne := by
  have scale : (tenTo (-s.exponent).toNat : ℚ) ≠ 0 := by exact_mod_cast (tenTo_pos _).ne'
  rw [div_eq_iff scale, value, Nat.cast_mul, Nat.cast_mul, cast_tenTo_toNat]
  ring

theorem nearest_code (s : Scientific) : Nearest s.value s.code := by
  have one : (unitsPerOne : ℚ) ≠ 0 := by exact_mod_cast unitsPerOne_pos.ne'
  have nearest := nearestCode_nearest (unitsPerOne * tenTo s.exponent.toNat * s.significand)
    (tenTo_pos (-s.exponent).toNat)
  rwa [s.quotient_eq, mul_div_cancel_right₀ _ one] at nearest

theorem code_congr {s t : Scientific} (same : s.value = t.value) : s.code = t.code := by
  have scale (n : Nat) : (tenTo n : ℚ) ≠ 0 := by exact_mod_cast (tenTo_pos n).ne'
  apply nearestCode_congr (tenTo_pos _) (tenTo_pos _)
  have quotients := s.quotient_eq.trans ((congrArg (· * (unitsPerOne : ℚ)) same).trans
    t.quotient_eq.symm)
  rw [div_eq_div_iff (scale _) (scale _)] at quotients
  exact_mod_cast quotients

theorem strip_value (s : Scientific) : s.strip.value = s.value := by
  induction s using Scientific.strip.induct with
  | case1 s done => rw [strip, dif_pos done]
  | case2 s zeros rest =>
    have parts : s.significand / 10 * 10 = s.significand := by omega
    have whole : (s.significand : ℚ) = (s.significand / 10 : Nat) * 10 := by
      exact_mod_cast parts.symm
    rw [strip, dif_neg zeros, rest, value, value, whole, zpow_add_one₀ (by norm_num)]
    ring

end Scientific

section

variable {c num den : Nat}

theorem basin_high (c : Nat) : (basin c).high = 2 * (unitsOfCode c + unitsOfCode (c + 1)) := by
  simp only [basin, unitsOfCode_succ, Nat.one_shiftLeft]
  omega

theorem basin_low (some : 0 < c) : (basin c).low = 2 * (unitsOfCode (c - 1) + unitsOfCode c) := by
  have step := unitsOfCode_succ (c - 1)
  rw [Nat.sub_add_cancel some] at step
  have gap : (if c % binade = 0 ∧ 1 < c / binade then 2 ^ (c / binade - 1)
      else 2 * 2 ^ (c / binade - 1)) = 2 * 2 ^ ((c - 1) / binade - 1) := by
    rw [binade_eq]
    split
    · have exponent : c / 2 ^ 52 - 1 = (c - 1) / 2 ^ 52 - 1 + 1 := by omega
      rw [exponent, Nat.pow_succ']
    · have exponent : c / 2 ^ 52 - 1 = (c - 1) / 2 ^ 52 - 1 := by omega
      rw [exponent]
  simp only [basin, Nat.one_shiftLeft, gap]
  omega

/-- The basin of a double holds the quotients that are rounded to it. -/
theorem basin_holds_iff (some : 0 < c) (finite : c < infinityCode) (positive : 0 < den) :
    (basin c).holds (4 * num) den = true ↔ nearestCode num den = c := by
  have low : (basin c).low * den = 2 * ((unitsOfCode (c - 1) + unitsOfCode c) * den) := by
    rw [basin_low some, Nat.mul_assoc]
  have high : (basin c).high * den = 2 * ((unitsOfCode c + unitsOfCode (c + 1)) * den) := by
    rw [basin_high, Nat.mul_assoc]
  have below := nearestCode_le_iff num c positive finite
  have above := nearestCode_le_iff num (c - 1) positive (by omega)
  rw [Nat.sub_add_cancel some] at above
  have closed : (basin c).closed = decide (c % 2 = 0) := rfl
  have exactly : nearestCode num den = c ↔
      nearestCode num den ≤ c ∧ ¬ nearestCode num den ≤ c - 1 := by omega
  rw [exactly, below, above, Basin.holds, low, high, closed]
  split <;> simp only [Bool.and_eq_true, decide_eq_true_eq] at * <;> omega

def holdsAt (c : Nat) (exponent : ℤ) (n : Nat) : Bool :=
  (basin c).holds (4 * (unitsPerOne * tenTo exponent.toNat) * n) (tenTo (-exponent).toNat)

def pointBelow (c : Nat) (exponent : ℤ) : Nat :=
  unitsOfCode c * tenTo (-exponent).toNat / (unitsPerOne * tenTo exponent.toNat)

theorem holdsAt_iff (some : 0 < c) (finite : c < infinityCode) (exponent : ℤ) (n : Nat) :
    holdsAt c exponent n = true ↔ (Scientific.mk n exponent).code = c := by
  rw [holdsAt, Nat.mul_assoc, basin_holds_iff some finite (tenTo_pos _)]
  rfl

/-- A neighbour that is taken lies in the basin, whichever way a tie goes. -/
theorem holdsAt_of_neighbour? {tie : Tie} {exponent : ℤ} {n : Nat}
    (taken : neighbour? tie c exponent = some n) : holdsAt c exponent n = true := by
  simp only [neighbour?] at taken
  split at taken
  · rename_i both
    obtain ⟨low, high⟩ := (Bool.and_eq_true _ _).mp both
    split at taken
    · cases taken
      exact low
    · split at taken
      · cases taken
        exact high
      · -- both are equally near, so that both are in the basin
        cases tie with
        | up =>
          cases taken
          exact high
        | even =>
          cases taken
          rcases Nat.mod_two_eq_zero_or_one (pointBelow c exponent) with parity | parity
          · exact (congrArg (holdsAt c exponent <| pointBelow c exponent + ·) parity).trans low
          · exact (congrArg (holdsAt c exponent <| pointBelow c exponent + ·) parity).trans high
  · split at taken
    · cases taken
      assumption
    · split at taken
      · cases taken
        assumption
      · cases taken

theorem neighbour?_isSome (tie : Tie) {exponent : ℤ}
    (near : holdsAt c exponent (pointBelow c exponent) = true ∨
      holdsAt c exponent (pointBelow c exponent + 1) = true) :
    (neighbour? tie c exponent).isSome := by
  simp only [neighbour?]
  split
  · split
    · rfl
    · split
      · rfl
      · cases tie <;> rfl
  · split
    · rfl
    · split
      · rfl
      · rename_i notBelow notAbove
        exact (near.elim notBelow notAbove).elim

end

theorem lt_tenTo_length (n : Nat) : n < tenTo (digits n).length := by
  induction n using digits.induct with
  | case1 n below =>
    rw [digits_below n below]
    exact below
  | case2 n above rest =>
    rw [digits_above n above, List.length_append, List.length_singleton, tenTo_succ]
    omega

theorem tenTo_length_le {n : Nat} (some : 0 < n) : tenTo (digits n).length ≤ 10 * n := by
  induction n using digits.induct with
  | case1 n below =>
    rw [digits_below n below]
    exact Nat.mul_le_mul_left 10 some
  | case2 n above rest =>
    have shorter := rest (by omega)
    rw [digits_above n above, List.length_append, List.length_singleton, tenTo_succ]
    omega

theorem leadingPlace_le {units : Nat} (some : 0 < units) :
    (10 : ℚ) ^ leadingPlace units * unitsPerOne ≤ 10 * units := by
  rw [leadingPlace]
  split
  · rename_i large
    have whole : 0 < units / unitsPerOne := Nat.div_pos large unitsPerOne_pos
    have length : tenTo (digits (units / unitsPerOne)).length * unitsPerOne ≤ 10 * units :=
      calc tenTo (digits (units / unitsPerOne)).length * unitsPerOne
          ≤ 10 * (units / unitsPerOne) * unitsPerOne :=
            Nat.mul_le_mul_right _ (tenTo_length_le whole)
        _ = 10 * (units / unitsPerOne * unitsPerOne) := Nat.mul_assoc _ _ _
        _ ≤ 10 * units := Nat.mul_le_mul_left _ (Nat.div_mul_le_self _ _)
    rw [zpow_natCast, ← cast_tenTo]
    exact_mod_cast length
  · have length := lt_tenTo_length ((unitsPerOne - 1) / units)
    rw [Nat.div_lt_iff_lt_mul some] at length
    have one := unitsPerOne_pos
    have reached : unitsPerOne ≤ tenTo (digits ((unitsPerOne - 1) / units)).length * units := by
      omega
    generalize (digits ((unitsPerOne - 1) / units)).length = places at reached ⊢
    have scale : (0 : ℚ) < 10 ^ places := by positivity
    rw [zpow_sub₀ (by norm_num), zpow_one, zpow_natCast, div_mul_eq_mul_div, div_le_iff₀ scale,
      ← cast_tenTo]
    exact_mod_cast (by nlinarith : 10 * unitsPerOne ≤ 10 * units * tenTo places)

/-- Within a binade the gap below a double is as wide as the one above it. -/
theorem unitsOfCode_pred_add {shift x : Nat} (some : 0 < x) (inside : shift = 0 ∨ binade < x)
    (high : x ≤ 2 * binade) :
    unitsOfCode (shift * binade + x - 1) + 2 ^ shift = unitsOfCode (shift * binade + x) := by
  obtain ⟨y, rfl⟩ : ∃ y, x = y + 1 := ⟨x - 1, by omega⟩
  have previous : unitsOfCode (shift * binade + y) = y * 2 ^ shift :=
    unitsOfCode_shifted (by omega) (by omega)
  have here : unitsOfCode (shift * binade + (y + 1)) = (y + 1) * 2 ^ shift :=
    unitsOfCode_shifted (by omega) high
  rw [here, ← Nat.add_assoc, Nat.add_sub_cancel, previous, Nat.succ_mul]

/-- Of two neighbours of a double on a grid of so fine a spacing, one is rounded to it: the spacing
is less than a gap between doubles. Below a power of two the gap is half as wide, but there the
spacing is less than half the gap above, and the upper neighbour will do. -/
theorem neighbour_near {c step shrink : Nat} (some : 0 < c) (finite : c < infinityCode)
    (positive : 0 < shrink) (spaced : 0 < step)
    (fine : step * 10 ^ 16 ≤ unitsOfCode c * shrink) :
    nearestCode (step * (unitsOfCode c * shrink / step)) shrink = c ∨
      nearestCode (step * (unitsOfCode c * shrink / step + 1)) shrink = c := by
  have parts := Nat.div_add_mod (unitsOfCode c * shrink) step
  have small := Nat.mod_lt (unitsOfCode c * shrink) spaced
  have before : unitsOfCode (c - 1) < unitsOfCode c := unitsOfCode_strictMono (by omega)
  have low := Nat.mul_lt_mul_of_pos_right before positive
  generalize unitsOfCode c * shrink / step = below at parts ⊢
  generalize unitsOfCode c * shrink % step = rest at parts small
  obtain ⟨shift, x, rfl, leading, high⟩ := exists_shifted c
  have here := unitsOfCode_shifted leading high.le
  have after : unitsOfCode (shift * binade + (x + 1)) = (x + 1) * 2 ^ shift :=
    unitsOfCode_shifted (by omega) (by omega)
  rw [← Nat.add_assoc] at after
  have scaled : unitsOfCode (shift * binade + x) * shrink = x * (2 ^ shift * shrink) := by
    rw [here, Nat.mul_assoc]
  have next : unitsOfCode (shift * binade + x + 1) * shrink =
      x * (2 ^ shift * shrink) + 2 ^ shift * shrink := by
    rw [after, Nat.mul_assoc, Nat.succ_mul]
  have leads : 0 < x := by
    rcases leading with rfl | leading
    · rwa [Nat.zero_mul, Nat.zero_add] at some
    · exact Nat.lt_of_lt_of_le (by decide) leading
  have wide (inside : shift = 0 ∨ binade < x) :
      unitsOfCode (shift * binade + x - 1) * shrink + 2 ^ shift * shrink =
        x * (2 ^ shift * shrink) := by
    rw [← Nat.add_mul, unitsOfCode_pred_add leads inside high.le, scaled]
  rw [here, Nat.mul_assoc] at parts fine low
  generalize 2 ^ shift * shrink = gap at *
  have above : step * (below + 1) = step * below + step := Nat.mul_succ step below
  by_cases far : gap ≤ 2 * (step - rest)
  · left
    -- twice a spacing is more than a gap, so the double does not begin a binade
    have inside : shift = 0 ∨ binade < x := by
      by_contra first
      have start : x = binade := by omega
      rw [start, binade_eq] at fine
      omega
    have closer : step < gap := by
      have bound : x * gap ≤ 2 * binade * gap := Nat.mul_le_mul_right gap high.le
      rw [binade_eq] at bound
      omega
    have wide := wide inside
    apply nearestCode_eq_of_near positive some finite
    · rw [Nat.add_mul, scaled]
      omega
    · rw [Nat.add_mul, scaled, next]
      omega
  · right
    apply nearestCode_eq_of_near positive some finite
    · rw [Nat.add_mul, scaled, above]
      omega
    · rw [Nat.add_mul, scaled, next, above]
      omega

/-- The spacing of the grid of seventeen digits, scaled to whole numbers. -/
theorem spacing_fine {units : Nat} {exponent : ℤ} (some : 0 < units)
    (here : exponent = leadingPlace units - 17) :
    unitsPerOne * tenTo exponent.toNat * 10 ^ 16 ≤ units * tenTo (-exponent).toNat := by
  have place : (10 : ℚ) ^ leadingPlace units = 10 ^ exponent * 10 ^ 17 := by
    rw [← zpow_natCast, ← zpow_add₀ (by norm_num), here]
    congr 1
    omega
  have leading := leadingPlace_le some
  rw [place] at leading
  have scaled : ((unitsPerOne * tenTo exponent.toNat * 10 ^ 16 : Nat) : ℚ) ≤
      (units * tenTo (-exponent).toNat : Nat) := by
    push_cast
    rw [cast_tenTo_toNat]
    have positive : (0 : ℚ) ≤ tenTo (-exponent).toNat := by positivity
    have bound := mul_le_mul_of_nonneg_right leading positive
    linarith
  exact_mod_cast scaled

/-- Seventeen digits suffice. -/
theorem neighbour?_seventeen (tie : Tie) {c : Nat} (some : 0 < c) (finite : c < infinityCode) :
    (neighbour? tie c (leadingPlace (unitsOfCode c) - 17)).isSome := by
  obtain ⟨exponent, here⟩ : ∃ exponent, exponent = leadingPlace (unitsOfCode c) - 17 := ⟨_, rfl⟩
  have units : 0 < unitsOfCode c := unitsOfCode_strictMono some
  have spaced : 0 < unitsPerOne * tenTo exponent.toNat := Nat.mul_pos unitsPerOne_pos (tenTo_pos _)
  have near := neighbour_near some finite (tenTo_pos _) spaced (spacing_fine units here)
  rw [← here]
  apply neighbour?_isSome
  rw [holdsAt_iff some finite, holdsAt_iff some finite]
  exact near

/-- The shortest decimal of a double is rounded to it. -/
theorem code_shortest (tie : Tie) {c : Nat} (some : 0 < c) (finite : c < infinityCode) :
    (shortest tie c).code = c := by
  let candidate (k : Nat) := (neighbour? tie c (leadingPlace (unitsOfCode c) - (k + 1 : Nat))).map
    fun n => Scientific.mk n (leadingPlace (unitsOfCode c) - (k + 1 : Nat))
  -- the search ends, at seventeen digits if not before, and whatever it finds is in the basin
  have one : ((List.range 17).findSome? candidate).isSome := by
    rw [List.findSome?_isSome_iff]
    refine ⟨16, by decide, ?_⟩
    rw [Option.isSome_map]
    exact neighbour?_seventeen tie some finite
  obtain ⟨s, found⟩ := Option.isSome_iff_exists.mp one
  obtain ⟨k, _, chosen⟩ := List.exists_of_findSome?_eq_some found
  obtain ⟨n, taken, rfl⟩ := Option.map_eq_some_iff.mp chosen
  have stripped : shortest tie c = (((List.range 17).findSome? candidate).getD ⟨0, 0⟩).strip := rfl
  rw [stripped, found, Option.getD_some, Scientific.code_congr (Scientific.strip_value _)]
  exact (holdsAt_iff some finite _ n).mp (holdsAt_of_neighbour? taken)

end Cadence.Decimal
