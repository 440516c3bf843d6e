import Cadence.Meter.Reporting
import Mathlib.Data.List.Sort
import Mathlib.Data.Nat.ModEq

namespace Cadence

def multiples (i lo hi : Nat) : List Nat := (List.range' (lo + 1) (hi - lo)).filter (i ∣ ·)

theorem mem_multiples (i lo hi c : Nat) : c ∈ multiples i lo hi ↔ lo < c ∧ c ≤ hi ∧ i ∣ c := by
  simp only [multiples, List.mem_filter, List.mem_range'_1, decide_eq_true_eq]
  omega

theorem multiples_increasing (i lo hi : Nat) : (multiples i lo hi).Pairwise (· < ·) :=
  List.Pairwise.filter _ List.pairwise_lt_range'

theorem multiples_append (i lo mid hi : Nat) (first : lo ≤ mid) (second : mid ≤ hi) :
    multiples i lo mid ++ multiples i mid hi = multiples i lo hi := by
  have joined := List.range'_append_1 (s := lo + 1) (m := mid - lo) (n := hi - mid)
  rw [show lo + 1 + (mid - lo) = mid + 1 by omega,
    show mid - lo + (hi - mid) = hi - lo by omega] at joined
  rw [multiples, multiples, multiples, ← List.filter_append, joined]

theorem multiples_eq_nil (i lo hi : Nat) (none : ∀ c, lo < c → c ≤ hi → ¬ i ∣ c) :
    multiples i lo hi = [] := by
  apply List.eq_nil_iff_forall_not_mem.mpr
  intro c member
  obtain ⟨above, reached, divides⟩ := (mem_multiples i lo hi c).mp member
  exact none c above reached divides

theorem multiples_succ (i c : Nat) : multiples i c (c + 1) = if i ∣ c + 1 then [c + 1] else [] := by
  rw [multiples, show c + 1 - c = 1 by omega]
  by_cases divides : i ∣ c + 1 <;> simp [divides]

theorem multiples_to_next (i lo b : Nat) (above : lo < b) (divides : i ∣ b)
    (next : b ≤ lo + i) : multiples i lo b = [b] := by
  have before : multiples i lo (b - 1) = [] := by
    apply multiples_eq_nil
    rintro c later earlier ⟨k, rfl⟩
    obtain ⟨n, rfl⟩ := divides
    have fewer : k < n := Nat.lt_of_mul_lt_mul_left (show i * k < i * n by omega)
    have gap : i * (k + 1) ≤ i * n := Nat.mul_le_mul_left i fewer
    rw [Nat.mul_succ] at gap
    omega
  have last := multiples_succ i (b - 1)
  rw [show b - 1 + 1 = b by omega, if_pos divides] at last
  rw [← multiples_append i lo (b - 1) b (by omega) (by omega), before, last, List.nil_append]

theorem length_multiples (i n : Nat) : (multiples i 0 n).length = n / i := by
  induction n with
  | zero => simp [multiples]
  | succ n previous =>
    rw [← multiples_append i 0 n (n + 1) (by omega) (by omega), List.length_append, previous,
      multiples_succ, Nat.succ_div]
    split <;> rfl

/-- The counts in `(lo, hi]` at which a meter with the interval reports. -/
def boundaries (interval : Interval) (lo hi : UInt64) : List UInt64 :=
  (multiples interval.records.toNat lo.toNat hi.toNat).map UInt64.ofNat

theorem toNat_boundaries (interval : Interval) (lo hi : UInt64) :
    (boundaries interval lo hi).map UInt64.toNat =
      multiples interval.records.toNat lo.toNat hi.toNat := by
  rw [boundaries, List.map_map]
  refine (List.map_congr_left ?_).trans (List.map_id _)
  intro c member
  have reached := ((mem_multiples _ _ _ _).mp member).2.1
  exact UInt64.toNat_ofNat_of_lt' (Nat.lt_of_le_of_lt reached hi.toNat_lt)

theorem boundaries_of_multiples (interval : Interval) (lo hi : UInt64) (bs : List UInt64)
    (same : multiples interval.records.toNat lo.toNat hi.toNat = bs.map UInt64.toNat) :
    boundaries interval lo hi = bs := by
  rw [boundaries, same, List.map_map]
  exact List.map_id'' (fun b => UInt64.ofNat_toNat) bs

theorem mem_boundaries (interval : Interval) (lo hi c : UInt64) :
    c ∈ boundaries interval lo hi ↔ lo < c ∧ c ≤ hi ∧ interval.records.toNat ∣ c.toNat := by
  rw [UInt64.lt_iff_toNat_lt, UInt64.le_iff_toNat_le, ← mem_multiples, ← toNat_boundaries,
    List.mem_map]
  constructor
  · intro member
    exact ⟨c, member, rfl⟩
  · rintro ⟨b, member, same⟩
    rwa [← UInt64.toNat_inj.mp same]

theorem boundaries_increasing (interval : Interval) (lo hi : UInt64) :
    (boundaries interval lo hi).Pairwise (· < ·) := by
  have increasing := multiples_increasing interval.records.toNat lo.toNat hi.toNat
  rw [← toNat_boundaries, List.pairwise_map] at increasing
  exact increasing.imp fun earlier => UInt64.lt_iff_toNat_lt.mpr earlier

theorem boundaries_append (interval : Interval) (lo mid hi : UInt64)
    (first : lo ≤ mid) (second : mid ≤ hi) :
    boundaries interval lo mid ++ boundaries interval mid hi = boundaries interval lo hi := by
  rw [boundaries, boundaries, boundaries, ← List.map_append,
    multiples_append _ _ _ _ (UInt64.le_iff_toNat_le.mp first) (UInt64.le_iff_toNat_le.mp second)]

theorem length_boundaries (interval : Interval) (hi : UInt64) :
    (boundaries interval 0 hi).length = hi.toNat / interval.records.toNat := by
  rw [boundaries, List.length_map]
  exact length_multiples _ _

theorem length_boundaries_le (interval : Interval) (lo hi : UInt64) :
    (boundaries interval lo hi).length ≤ hi.toNat - lo.toNat := by
  rw [boundaries, List.length_map, multiples]
  exact (List.length_filter_le _ _).trans_eq List.length_range'

end Cadence
