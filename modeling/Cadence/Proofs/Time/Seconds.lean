import Cadence.Proofs.Binary64.Comparison
import Cadence.Time.Instant

namespace Cadence

open Binary64

namespace Span

theorem fraction_lt (d : Span) : d.fraction < nanosPerSecond := Nat.mod_lt _ (by decide)

def fractionCode (nanos : Nat) : Nat := quotientCode (wholeCode nanos) (wholeCode nanosPerSecond)

theorem fractionCode_mono {m n : Nat} (below : m ≤ n) : fractionCode m ≤ fractionCode n :=
  quotientCode_mono (wholeCode_mono below) (wholeCode_pos (by decide)) le_rfl

/-- Not even the greatest fraction of a second is rounded up to a second. -/
theorem units_fractionCode_lt {nanos : Nat} (part : nanos < nanosPerSecond) :
    unitsOfCode (fractionCode nanos) < unitsPerOne := by
  have greatest : unitsOfCode (fractionCode (nanosPerSecond - 1)) < unitsPerOne := by
    decide +kernel
  exact (unitsOfCode_strictMono.monotone (fractionCode_mono (by omega))).trans_lt greatest

/-- Seconds with a fraction come to no more than the next whole second. -/
theorem sumCode_le_next (seconds : Nat) {nanos : Nat} (part : nanos < nanosPerSecond) :
    sumCode (wholeCode seconds) (fractionCode nanos) ≤ wholeCode (seconds + 1) := by
  have small := units_fractionCode_lt part
  rcases Nat.lt_or_ge seconds (2 * binade) with exact | coarse
  · apply nearestCode_mono one_pos one_pos
    rw [units_wholeCode exact, Nat.succ_mul]
    omega
  · refine le_trans ?_ (wholeCode_mono (Nat.le_succ seconds))
    apply nearestCode_le_of_near one_pos
    have high : 1076 * binade ≤ wholeCode seconds := by
      have least : 1076 * binade ≤ wholeCode (2 * binade) := by decide +kernel
      exact least.trans (wholeCode_mono coarse)
    have gap : 2 * unitsPerOne ≤ 2 ^ (wholeCode seconds / binade - 1) := by
      have places : 1076 ≤ wholeCode seconds / binade :=
        (Nat.le_div_iff_mul_le (by decide)).mpr high
      obtain ⟨zeros, here⟩ : ∃ zeros, zeros = 1074 := ⟨_, rfl⟩
      rw [unitsPerOne_eq_pow here, Nat.mul_comm, ← Nat.pow_succ]
      exact Nat.pow_le_pow_right two_pos (by omega)
    rw [unitsOfCode_succ]
    omega

def secondsCode (d : Span) : Nat := sumCode (wholeCode d.wholeSeconds) (fractionCode d.fraction)

theorem secondsCode_mono {d e : Span} (shorter : d.nanos ≤ e.nanos) :
    secondsCode d ≤ secondsCode e := by
  have wholes : d.wholeSeconds ≤ e.wholeSeconds := Nat.div_le_div_right shorter
  rcases wholes.eq_or_lt with same | fewer
  · have fractions : d.fraction ≤ e.fraction := by
      simp only [wholeSeconds, fraction, nanosPerSecond] at same ⊢
      omega
    rw [secondsCode, same]
    exact sumCode_mono le_rfl (fractionCode_mono fractions)
  · calc secondsCode d ≤ wholeCode (d.wholeSeconds + 1) := sumCode_le_next _ d.fraction_lt
      _ ≤ wholeCode e.wholeSeconds := wholeCode_mono fewer
      _ = sumCode (wholeCode e.wholeSeconds) 0 :=
        (sumCode_zero (nearestCode_le_infinityCode _ _)).symm
      _ ≤ secondsCode e := sumCode_mono le_rfl (Nat.zero_le _)

theorem secondsCode_pos {d : Span} (some : 0 < d.nanos) : 0 < secondsCode d := by
  have least : 0 < secondsCode ⟨1⟩ := by decide +kernel
  exact least.trans_le (secondsCode_mono some)

theorem secondsCode_lt {d : Span} (fits : d.wholeSeconds < 2 ^ 64) :
    secondsCode d < infinityCode :=
  (sumCode_le_next _ d.fraction_lt).trans_lt (wholeCode_lt fits)

theorem seconds_eq (d : Span) : d.seconds = ofCode false (secondsCode d) := by
  have second : wholeCode nanosPerSecond < infinityCode := wholeCode_lt (by decide)
  have nanos : wholeCode d.fraction < infinityCode :=
    (wholeCode_mono d.fraction_lt.le).trans_lt second
  have part : fractionCode d.fraction < infinityCode := by
    have one : fractionCode nanosPerSecond < infinityCode := by decide +kernel
    exact (fractionCode_mono d.fraction_lt.le).trans_lt one
  have number : wholeCode d.wholeSeconds ≤ infinityCode := nearestCode_le_infinityCode _ _
  rw [seconds, ofNat_eq, ofNat_eq, ofNat_eq, div_ofCode nanos (wholeCode_pos (by decide)) second,
    ← fractionCode, secondsCode]
  rcases number.lt_or_eq with finite | beyond
  · exact add_ofCode finite part
  · rw [beyond, sumCode_infinity]
    exact infinity_add part.le

/-- More time is never fewer seconds. -/
theorem seconds_mono {d e : Span} (shorter : d.nanos ≤ e.nanos) : d.seconds ≤ e.seconds := by
  rw [seconds_eq, seconds_eq]
  exact ofCode_le_ofCode (secondsCode_mono shorter) (nearestCode_le_infinityCode _ _)

theorem seconds_zero : (⟨0⟩ : Span).seconds = zero := by decide +kernel

end Span

end Cadence
