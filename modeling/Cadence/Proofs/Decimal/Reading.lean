import Cadence.Proofs.Binary64.Value
import Cadence.Proofs.Decimal.Canonical

namespace Cadence.Decimal

inductive Magnitude
  | infinite
  | finite (parts : Nat)

inductive Reading
  | nan
  | signed (negative : Bool) (m : Magnitude)

inductive SpellsMagnitude (places : Nat) : Magnitude → List Char → Prop
  | infinite : SpellsMagnitude places .infinite ['i', 'n', 'f']
  | finite {parts : Nat} {whole fraction : List Char}
      (canonical : Canonical (parts / tenTo places) whole)
      (padded : Padded places (parts % tenTo places) fraction) :
      SpellsMagnitude places (.finite parts) (whole ++ '.' :: fraction)

def sign (negative : Bool) : List Char := if negative then ['-'] else []

inductive Spells (places : Nat) : Reading → List Char → Prop
  | nan : Spells places .nan ['N', 'a', 'N']
  | signed (negative : Bool) {m : Magnitude} {cs : List Char}
      (magnitude : SpellsMagnitude places m cs) :
      Spells places (.signed negative m) (sign negative ++ cs)

variable {places : Nat}

theorem digitChar_ne : ∀ d < 10, digitChar d ≠ '-' ∧ digitChar d ≠ 'i' ∧ digitChar d ≠ 'N' := by
  decide

theorem numeral_subset {cs : List Char} {n : Nat} (read : number? cs = some n) :
    cs ⊆ numberChars := by
  intro c member
  obtain ⟨d, small, rfl⟩ := digits_of_number? read c member
  exact digitChar_mem d small

theorem Canonical.front {n : Nat} {cs : List Char} (canonical : Canonical n cs) :
    ∃ d rest, d < 10 ∧ cs = digitChar d :: rest := by
  obtain ⟨c, rest, rfl⟩ := List.exists_cons_of_ne_nil canonical.nonempty
  obtain ⟨d, small, rfl⟩ := digits_of_number? canonical.value c List.mem_cons_self
  exact ⟨d, rest, small, rfl⟩

namespace SpellsMagnitude

variable {m m' : Magnitude} {cs cs' : List Char}

theorem front (spells : SpellsMagnitude places m cs) :
    ∃ c rest, cs = c :: rest ∧ c ≠ '-' ∧ c ≠ 'N' := by
  cases spells with
  | infinite => exact ⟨'i', _, rfl, by decide⟩
  | finite canonical padded =>
    obtain ⟨d, rest, small, rfl⟩ := canonical.front
    obtain ⟨minus, _, letter⟩ := digitChar_ne d small
    exact ⟨digitChar d, _, rfl, minus, letter⟩

theorem subset (spells : SpellsMagnitude places m cs) : cs ⊆ numberChars := by
  cases spells with
  | infinite => decide
  | finite canonical padded =>
    intro c member
    rw [List.mem_append, List.mem_cons] at member
    rcases member with whole | rfl | fraction
    · exact numeral_subset canonical.value whole
    · decide
    · exact numeral_subset padded.value fraction

theorem text_unique (spells : SpellsMagnitude places m cs)
    (spells' : SpellsMagnitude places m cs') : cs = cs' := by
  cases spells with
  | infinite =>
    cases spells'
    rfl
  | finite canonical padded =>
    cases spells' with
    | finite canonical' padded' => rw [canonical.unique canonical', padded.unique padded']

theorem magnitude_unique (spells : SpellsMagnitude places m cs)
    (spells' : SpellsMagnitude places m' cs') (same : cs = cs') : m = m' := by
  have mixed {parts : Nat} {whole fraction : List Char}
      (canonical : Canonical (parts / tenTo places) whole) :
      ['i', 'n', 'f'] ≠ whole ++ '.' :: fraction := by
    obtain ⟨d, rest, small, rfl⟩ := canonical.front
    intro same
    exact (digitChar_ne d small).2.1 (List.cons.inj same).1.symm
  cases spells with
  | infinite =>
    cases spells' with
    | infinite => rfl
    | finite canonical' padded' => exact absurd same (mixed canonical')
  | @finite parts whole fraction canonical padded =>
    cases spells' with
    | infinite => exact absurd same.symm (mixed canonical)
    | finite canonical' padded' =>
      -- the fractions are equally long, so the point stands at the same place
      have width := padded.length.trans padded'.length.symm
      obtain ⟨rfl, pointed⟩ := List.append_inj' same (congrArg Nat.succ width)
      obtain rfl := (List.cons.inj pointed).2
      have whole := Option.some.inj (canonical.value.symm.trans canonical'.value)
      have rest := Option.some.inj (padded.value.symm.trans padded'.value)
      rw [← Nat.div_add_mod parts (tenTo places), whole, rest, Nat.div_add_mod]

end SpellsMagnitude

namespace Spells

variable {ρ ρ' : Reading} {cs cs' : List Char}

theorem subset (spells : Spells places ρ cs) : cs ⊆ numberChars := by
  cases spells with
  | nan => decide
  | signed negative magnitude =>
    apply List.append_subset.mpr
    refine ⟨?_, magnitude.subset⟩
    cases negative <;> decide

theorem text_unique (spells : Spells places ρ cs) (spells' : Spells places ρ cs') : cs = cs' := by
  cases spells with
  | nan =>
    cases spells'
    rfl
  | signed negative magnitude =>
    cases spells' with
    | signed _ magnitude' => rw [magnitude.text_unique magnitude']

theorem reading_unique (spells : Spells places ρ cs) (spells' : Spells places ρ' cs')
    (same : cs = cs') : ρ = ρ' := by
  have mixed (negative : Bool) {m : Magnitude} {cs : List Char}
      (magnitude : SpellsMagnitude places m cs) : ['N', 'a', 'N'] ≠ sign negative ++ cs := by
    obtain ⟨c, rest, rfl, _, letter⟩ := magnitude.front
    intro same
    cases negative
    · exact letter (List.cons.inj same).1.symm
    · cases same
  cases spells with
  | nan =>
    cases spells' with
    | nan => rfl
    | signed negative magnitude => exact absurd same (mixed negative magnitude)
  | signed negative magnitude =>
    cases spells' with
    | nan => exact absurd same.symm (mixed negative magnitude)
    | signed negative' magnitude' =>
      obtain ⟨c, rest, rfl, minus, _⟩ := magnitude.front
      obtain ⟨c', rest', rfl, minus', _⟩ := magnitude'.front
      cases negative <;> cases negative'
      · rw [magnitude.magnitude_unique magnitude' same]
      · exact absurd (List.cons.inj same).1 minus
      · exact absurd (List.cons.inj same).1.symm minus'
      · rw [magnitude.magnitude_unique magnitude' (List.cons.inj same).2]

end Spells

end Cadence.Decimal

namespace Cadence.Binary64

open Decimal

/-- The reading is that of the value, rounded once to so many places. -/
inductive ReadsAs (places : Nat) (x : Binary64) : Reading → Prop
  | nan (top : x.exponent = 2047) (payload : x.fraction ≠ 0) : x.ReadsAs places .nan
  | infinite (top : x.exponent = 2047) (bare : x.fraction = 0) :
      x.ReadsAs places (.signed x.signBit .infinite)
  | finite {parts : Nat} (below : x.exponent < 2047)
      (rounds : RoundsTo (x.value * 10 ^ places) (if x.signBit then -parts else parts)) :
      x.ReadsAs places (.signed x.signBit (.finite parts))

theorem ReadsAs.unique {places : Nat} {x : Binary64} {ρ ρ' : Reading}
    (reads : x.ReadsAs places ρ) (reads' : x.ReadsAs places ρ') : ρ = ρ' := by
  cases reads with
  | nan top payload =>
    cases reads' with
    | nan => rfl
    | infinite _ bare => exact absurd bare payload
    | finite below => omega
  | infinite top bare =>
    cases reads' with
    | nan _ payload => exact absurd bare payload
    | infinite => rfl
    | finite below => omega
  | finite below rounds =>
    cases reads' with
    | nan top => omega
    | infinite top => omega
    | finite _ rounds' =>
      have same := rounds.unique rounds'
      congr 2
      split at same <;> omega

def parts (places : Nat) (x : Binary64) : Nat :=
  roundHalfEven (x.units * tenTo places) unitsPerOne

theorem rounds_parts (places : Nat) (x : Binary64) :
    RoundsTo (x.value * 10 ^ places)
      (if x.signBit then -(x.parts places) else x.parts places) := by
  have rounds : RoundsTo (x.units / unitsPerOne * 10 ^ places) (x.parts places) := by
    have scaled := roundHalfEven_rounds (x.units * tenTo places) unitsPerOne_pos
    rw [tenTo, Nat.pow_eq] at scaled
    push_cast at scaled
    rw [mul_div_right_comm] at scaled
    exact scaled
  rw [value_eq, signedUnits, isNegative_eq]
  cases x.signBit with
  | false => exact rounds
  | true =>
    have mirrored := rounds.neg
    rw [← neg_mul, ← neg_div] at mirrored
    rw [if_pos rfl, if_pos rfl]
    push_cast
    exact mirrored

theorem spells_fixedMagnitude (places units : Nat) :
    SpellsMagnitude places (.finite (roundHalfEven (units * tenTo places) unitsPerOne))
      (fixedMagnitude places units) :=
  .finite (Canonical.chars _) (Padded.paddedDigits places _)

/-- Fixed places spell the reading of the double. -/
theorem spells_fixedChars (places : Nat) (x : Binary64) :
    ∃ ρ, x.ReadsAs places ρ ∧ Spells places ρ (fixedChars places x) := by
  rw [fixedChars]
  by_cases nan : x.isNaN = true
  · obtain ⟨top, payload⟩ := x.isNaN_iff.mp nan
    rw [if_pos nan]
    exact ⟨.nan, .nan top payload, .nan⟩
  · rw [if_neg nan, isNegative_eq]
    by_cases infinite : x.isInfinite = true
    · obtain ⟨top, bare⟩ := x.isInfinite_iff.mp infinite
      rw [if_pos infinite]
      exact ⟨_, .infinite top bare, .signed x.signBit .infinite⟩
    · have below : x.exponent < 2047 := by
        rw [isNaN_iff] at nan
        rw [isInfinite_iff] at infinite
        have field : x.exponent < 2 ^ 11 := Nat.mod_lt _ (by decide)
        omega
      rw [if_neg infinite]
      exact ⟨_, .finite below (x.rounds_parts places),
        .signed x.signBit (spells_fixedMagnitude places x.units)⟩

-- 2 ^ -7 is 0.0078125, as near to 0.007812 as to 0.007813
example : fixedChars 6 ⟨0x3F80000000000000⟩ = "0.007812".toList := by decide +kernel

end Cadence.Binary64
