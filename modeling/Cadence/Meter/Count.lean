namespace Cadence.Count

def greatest : UInt64 := 0xFFFFFFFFFFFFFFFF

theorem toNat_greatest : greatest.toNat = 18446744073709551615 := rfl

def plus? (a b : UInt64) : Option UInt64 :=
  if a.toNat + b.toNat ≤ greatest.toNat then some (a + b) else none

def times? (a b : UInt64) : Option UInt64 :=
  if a.toNat * b.toNat ≤ greatest.toNat then some (a * b) else none

def plusUpToGreatest (a b : UInt64) : UInt64 := (plus? a b).getD greatest

theorem toNat_le_greatest (a : UInt64) : a.toNat ≤ greatest.toNat := by
  have bound := a.toNat_lt
  rw [toNat_greatest]
  omega

theorem toNat_succ (a : UInt64) (room : a ≠ greatest) : (a + 1).toNat = a.toNat + 1 := by
  have below : a.toNat ≠ greatest.toNat := fun same => room (UInt64.toNat_inj.mp same)
  have bound := toNat_le_greatest a
  rw [toNat_greatest] at below bound
  rw [UInt64.toNat_add, UInt64.toNat_one]
  omega

theorem plus?_eq_some_iff (a b c : UInt64) :
    plus? a b = some c ↔ c.toNat = a.toNat + b.toNat := by
  have bound := toNat_le_greatest c
  rw [plus?]
  by_cases fits : a.toNat + b.toNat ≤ greatest.toNat
  · have size : a.toNat + b.toNat < 18446744073709551616 := Nat.lt_succ_of_le fits
    rw [if_pos fits, Option.some.injEq, ← UInt64.toNat_inj, UInt64.toNat_add,
      Nat.mod_eq_of_lt size]
    exact eq_comm
  · rw [if_neg fits]
    simp only [reduceCtorEq, false_iff]
    omega

theorem plus?_eq_none_iff (a b : UInt64) :
    plus? a b = none ↔ greatest.toNat < a.toNat + b.toNat := by
  simp [plus?]

theorem times?_eq_some_iff (a b c : UInt64) :
    times? a b = some c ↔ c.toNat = a.toNat * b.toNat := by
  have bound := toNat_le_greatest c
  rw [times?]
  by_cases fits : a.toNat * b.toNat ≤ greatest.toNat
  · have size : a.toNat * b.toNat < 18446744073709551616 := Nat.lt_succ_of_le fits
    rw [if_pos fits, Option.some.injEq, ← UInt64.toNat_inj, UInt64.toNat_mul,
      Nat.mod_eq_of_lt size]
    exact eq_comm
  · rw [if_neg fits]
    simp only [reduceCtorEq, false_iff]
    omega

theorem toNat_plusUpToGreatest (a b : UInt64) :
    (plusUpToGreatest a b).toNat = min greatest.toNat (a.toNat + b.toNat) := by
  rw [plusUpToGreatest]
  cases sum : plus? a b with
  | none =>
    have beyond := (plus?_eq_none_iff a b).mp sum
    simp only [Option.getD_none]
    omega
  | some c =>
    have total := (plus?_eq_some_iff a b c).mp sum
    have bound := toNat_le_greatest c
    simp only [Option.getD_some]
    omega

end Cadence.Count
