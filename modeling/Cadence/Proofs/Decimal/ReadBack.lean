import Cadence.Decimal.Layout
import Cadence.Proofs.Decimal.Reading
import Cadence.Proofs.Decimal.Shortest

namespace Cadence.Decimal

open Binary64

namespace Scientific

def ofPlain? (cs : List Char) : Option Scientific :=
  match cs.splitOn '.' with
  | [whole] =>
    if whole = [] then none else (number? whole).map fun n => ⟨n, 0⟩
  | [whole, fraction] =>
    if whole = [] then none
    else (number? (whole ++ fraction)).map fun n => ⟨n, -fraction.length⟩
  | _ => none

def exponent? : List Char → Option ℤ
  | [] => none
  | c :: cs =>
    if c = '-' then (number? cs).map fun n : Nat => -(n : ℤ)
    else if c = '+' then (number? cs).map fun n : Nat => (n : ℤ)
    else (number? (c :: cs)).map fun n : Nat => (n : ℤ)

def ofChars? (cs : List Char) : Option Scientific :=
  match cs.splitOn 'e' with
  | [mantissa] => ofPlain? mantissa
  | [mantissa, exponent] => do
    let m ← ofPlain? mantissa
    let e ← exponent? exponent
    return ⟨m.significand, m.exponent + e⟩
  | _ => none

end Scientific

def code? (cs : List Char) : Option Nat :=
  if cs = ['i', 'n', 'f'] then some infinityCode else (Scientific.ofChars? cs).map (·.code)

def double? (cs : List Char) : Option Binary64 :=
  if cs = ['N', 'a', 'N'] then some .notANumber
  else if cs.head? = some '-' then (code? cs.tail).map (ofCode true)
  else (code? cs).map (ofCode false)

section

variable {cs whole fraction : List Char} {n : Nat}

theorem splitOn_pair {c : Char} (front : c ∉ whole) (back : c ∉ fraction) :
    (whole ++ c :: fraction).splitOn c = [whole, fraction] := by
  rw [List.splitOn_append_cons_self_of_not_mem front, List.splitOn_eq_singleton back]

theorem numeral_avoids (read : number? cs = some n) {c : Char} (other : digit? c = none) :
    c ∉ cs := by
  intro member
  obtain ⟨d, small, rfl⟩ := digits_of_number? read c member
  rw [digit?_digitChar d small] at other
  cases other

theorem numeral_front (digit : whole ≠ []) (read : number? (whole ++ fraction) = some n) :
    ∃ d rest, d < 10 ∧ whole = digitChar d :: rest := by
  obtain ⟨c, rest, rfl⟩ := List.exists_cons_of_ne_nil digit
  obtain ⟨d, small, rfl⟩ := digits_of_number? read c List.mem_cons_self
  exact ⟨d, rest, small, rfl⟩

theorem number?_zeros_before (k : Nat) (cs : List Char) :
    number? (List.replicate k '0' ++ cs) = number? cs := by
  induction k with
  | zero => rfl
  | succ k rest => exact rest

theorem number?_zeros_after (read : number? cs = some n) (k : Nat) :
    number? (cs ++ List.replicate k '0') = some (n * tenTo k) := by
  induction k with
  | zero =>
    rw [List.replicate_zero, List.append_nil, read]
    exact congrArg some (Nat.mul_one n).symm
  | succ k rest =>
    have last := number?_snoc _ 0 _ (by decide) rest
    rw [List.replicate_succ', ← List.append_assoc, tenTo_succ, Nat.mul_left_comm]
    exact last

end

namespace Scientific

section

variable {cs mantissa whole fraction : List Char} {n : Nat} {m : Scientific} {e : ℤ}

inductive SpellsPlain : List Char → Scientific → Prop
  | whole {cs : List Char} {n : Nat} (digit : cs ≠ []) (read : number? cs = some n) :
      SpellsPlain cs ⟨n, 0⟩
  | pointed {whole fraction : List Char} {n : Nat} (digit : whole ≠ [])
      (read : number? (whole ++ fraction) = some n) :
      SpellsPlain (whole ++ '.' :: fraction) ⟨n, -fraction.length⟩

namespace SpellsPlain

theorem ofPlain? (spells : SpellsPlain cs m) : ofPlain? cs = some m := by
  cases spells with
  | whole digit read =>
    rw [Scientific.ofPlain?, List.splitOn_eq_singleton (numeral_avoids read rfl)]
    exact (if_neg digit).trans (congrArg (Option.map _) read)
  | pointed digit read =>
    have solid := numeral_avoids read (c := '.') rfl
    rw [List.mem_append, not_or] at solid
    rw [Scientific.ofPlain?, splitOn_pair solid.1 solid.2]
    exact (if_neg digit).trans (congrArg (Option.map _) read)

theorem subset (spells : SpellsPlain cs m) : cs ⊆ numberChars := by
  cases spells with
  | whole _ read => exact numeral_subset read
  | pointed _ read =>
    obtain ⟨front, back⟩ := List.append_subset.mp (numeral_subset read)
    exact List.append_subset.mpr ⟨front, List.cons_subset.mpr ⟨by decide, back⟩⟩

theorem letterless (spells : SpellsPlain cs m) : 'e' ∉ cs := by
  intro letter
  exact absurd (spells.subset letter) (by decide)

theorem front (spells : SpellsPlain cs m) : ∃ d rest, d < 10 ∧ cs = digitChar d :: rest := by
  cases spells with
  | whole digit read =>
    rw [← List.append_nil cs] at read
    exact numeral_front digit read
  | pointed digit read =>
    obtain ⟨d, rest, small, rfl⟩ := numeral_front digit read
    exact ⟨d, _, small, rfl⟩

end SpellsPlain

theorem ofChars?_plain (spells : SpellsPlain cs m) : ofChars? cs = some m := by
  rw [ofChars?, List.splitOn_eq_singleton spells.letterless]
  exact spells.ofPlain?

theorem ofChars?_exponent (spells : SpellsPlain mantissa m) (letterless : 'e' ∉ cs)
    (back : exponent? cs = some e) :
    ofChars? (mantissa ++ 'e' :: cs) = some ⟨m.significand, m.exponent + e⟩ := by
  rw [ofChars?, splitOn_pair spells.letterless letterless]
  simp only [spells.ofPlain?, back]
  rfl

theorem exponent?_exponent (l : Layout) (e : ℤ) : exponent? (l.exponent e) = some e := by
  have read := number?_chars e.natAbs
  rw [Layout.exponent]
  split
  · rename_i negative
    have back : -(e.natAbs : ℤ) = e := by omega
    rw [List.singleton_append, exponent?, if_pos rfl, read, Option.map_some, back]
  · have back : (e.natAbs : ℤ) = e := by omega
    split
    · rw [List.singleton_append, exponent?, if_neg (by decide), if_pos rfl, read, Option.map_some,
        back]
    · obtain ⟨d, rest, small, spelled⟩ := (Canonical.chars e.natAbs).front
      have signless : ∀ d < 10, digitChar d ≠ '-' ∧ digitChar d ≠ '+' := by decide
      obtain ⟨minus, plus⟩ := signless d small
      rw [List.nil_append, spelled, exponent?, if_neg minus, if_neg plus, ← spelled, read,
        Option.map_some, back]

theorem spells_plain (s : Scientific) : ∃ m, SpellsPlain s.plain m ∧ m.value = s.value := by
  obtain ⟨significand, exponent⟩ := s
  have read := number?_chars significand
  have digit := chars_ne_nil significand
  rw [plain]
  generalize chars significand = ds at read digit
  cases exponent with
  | ofNat zeros =>
    -- the zero after the point is a digit of the decimal that is read, of the same value
    have tail : number? (ds ++ List.replicate zeros '0' ++ ['0']) =
        some (significand * tenTo (zeros + 1)) := by
      rw [List.append_assoc, ← List.replicate_succ']
      exact number?_zeros_after read (zeros + 1)
    refine ⟨_, .pointed (List.append_ne_nil_of_left_ne_nil digit _) tail, ?_⟩
    simp only [value, List.length_singleton, Int.ofNat_eq_natCast, zpow_natCast, Nat.cast_mul,
      cast_tenTo, pow_succ, Nat.cast_one, zpow_neg, zpow_one]
    ring
  | negSucc k =>
    simp only
    split
    · rename_i inside
      -- the point divides the digits, which read together are the significand
      have parts : number? (ds.take (ds.length - (k + 1)) ++ ds.drop (ds.length - (k + 1))) =
          some significand := by rwa [List.take_append_drop]
      have places : (ds.drop (ds.length - (k + 1))).length = k + 1 := by
        rw [List.length_drop]
        omega
      refine ⟨_, .pointed ?_ parts, ?_⟩
      · rw [← List.length_pos_iff, List.length_take]
        omega
      · rw [places]
        rfl
    · rename_i beyond
      -- all digits stand after the point, behind zeros that add nothing
      have zeros : number? (['0'] ++ (List.replicate (k + 1 - ds.length) '0' ++ ds)) =
          some significand := by
        rw [← read]
        exact number?_zeros_before (k + 1 - ds.length + 1) ds
      have places : (List.replicate (k + 1 - ds.length) '0' ++ ds).length = k + 1 := by
        rw [List.length_append, List.length_replicate]
        omega
      refine ⟨_, .pointed (List.cons_ne_nil _ _) zeros, ?_⟩
      rw [places]
      rfl

/-- The digits before the letter of an exponent spell the significand with a point after its first
digit. -/
theorem spells_mantissa (s : Scientific) (l : Layout) :
    ∃ mantissa m, s.withExponent l = mantissa ++ 'e' :: l.exponent s.leading ∧
      SpellsPlain mantissa m ∧ m.significand = s.significand ∧
        m.exponent + s.leading = s.exponent := by
  have read := number?_chars s.significand
  have digit := chars_ne_nil s.significand
  have length : (digits s.significand).length = (chars s.significand).length :=
    (List.length_map digitChar).symm
  rw [withExponent, leading, length]
  generalize chars s.significand = ds at read digit
  -- a point is set only between digits
  match ds with
  | [] => exact absurd rfl digit
  | [d] =>
    refine ⟨[d], _, rfl, .whole digit read, rfl, ?_⟩
    simp
  | d :: d' :: ds =>
    have spells : SpellsPlain ([d] ++ '.' :: d' :: ds) _ := .pointed (List.cons_ne_nil _ _) read
    refine ⟨[d] ++ '.' :: d' :: ds, _, rfl, spells, rfl, ?_⟩
    simp only [List.length_cons]
    omega

theorem exponent_subset (l : Layout) (e : ℤ) : l.exponent e ⊆ '+' :: numberChars := by
  have number : chars e.natAbs ⊆ '+' :: numberChars :=
    List.subset_cons_of_subset _ (chars_subset e.natAbs)
  rw [Layout.exponent]
  refine List.append_subset.mpr ⟨?_, number⟩
  split
  · decide
  · split <;> decide

theorem ofChars?_laidOut (s : Scientific) (l : Layout) :
    ∃ m, ofChars? (s.laidOut l) = some m ∧ m.value = s.value := by
  rw [laidOut]
  split
  · obtain ⟨m, spells, same⟩ := s.spells_plain
    exact ⟨m, ofChars?_plain spells, same⟩
  · obtain ⟨mantissa, m, text, spells, significand, exponent⟩ := s.spells_mantissa l
    have letterless : 'e' ∉ l.exponent s.leading := by
      intro letter
      exact absurd (exponent_subset l _ letter) (by decide)
    have read := ofChars?_exponent spells letterless (exponent?_exponent l _)
    rw [significand, exponent] at read
    exact ⟨s, by rwa [text], rfl⟩

theorem laidOut_front (s : Scientific) (l : Layout) :
    ∃ d rest, d < 10 ∧ s.laidOut l = digitChar d :: rest := by
  rw [laidOut]
  split
  · obtain ⟨m, spells, _⟩ := s.spells_plain
    exact spells.front
  · obtain ⟨mantissa, m, text, spells, _⟩ := s.spells_mantissa l
    obtain ⟨d, rest, small, rfl⟩ := spells.front
    exact ⟨d, _, small, text⟩

def laidOutChars : List Char := 'e' :: '+' :: numberChars

theorem laidOut_subset (s : Scientific) (l : Layout) : s.laidOut l ⊆ laidOutChars := by
  have number : numberChars ⊆ laidOutChars := by decide
  rw [laidOut]
  split
  · obtain ⟨m, spells, _⟩ := s.spells_plain
    exact List.Subset.trans spells.subset number
  · obtain ⟨mantissa, m, text, spells, _⟩ := s.spells_mantissa l
    rw [text]
    refine List.append_subset.mpr ⟨List.Subset.trans spells.subset number, ?_⟩
    exact List.cons_subset.mpr ⟨by decide, List.subset_cons_of_subset _ (exponent_subset l _)⟩

end

end Scientific

structure TellsCode (cs : List Char) (code : Nat) : Prop where
  signless : cs.head? ≠ some '-'
  number : cs ≠ ['N', 'a', 'N']
  read : code? cs = some code

namespace TellsCode

theorem infinity : TellsCode ['i', 'n', 'f'] infinityCode := ⟨by decide, by decide, rfl⟩

theorem zero : TellsCode ['0', '.', '0'] 0 := ⟨by decide, by decide, by decide +kernel⟩

theorem laidOut (s : Scientific) (l : Layout) : TellsCode (s.laidOut l) s.code := by
  obtain ⟨d, rest, small, front⟩ := s.laidOut_front l
  obtain ⟨m, read, same⟩ := s.ofChars?_laidOut l
  obtain ⟨minus, infinite, letter⟩ := digitChar_ne d small
  have first {c : Char} {word : List Char} (other : digitChar d ≠ c) : s.laidOut l ≠ c :: word := by
    rw [front]
    intro same
    exact other (List.cons.inj same).1
  constructor
  case signless =>
    rw [front, List.head?_cons, ne_eq, Option.some.injEq]
    exact minus
  case number => exact first letter
  case read =>
    rw [code?, if_neg (first infinite), read, Option.map_some, Scientific.code_congr same]

theorem double? {cs : List Char} {code : Nat} (tells : TellsCode cs code) (negative : Bool) :
    double? (sign negative ++ cs) = some (ofCode negative code) := by
  cases negative with
  | false =>
    change Decimal.double? cs = _
    rw [Decimal.double?, if_neg tells.number, if_neg tells.signless, tells.read]
    rfl
  | true =>
    have other : '-' :: cs ≠ ['N', 'a', 'N'] := by
      intro same
      exact absurd (List.cons.inj same).1 (by decide)
    change Decimal.double? ('-' :: cs) = _
    rw [Decimal.double?, if_neg other, if_pos List.head?_cons, List.tail_cons, tells.read]
    rfl

end TellsCode

theorem ofCode_code (x : Binary64) : ofCode x.isNegative x.code = x := by
  have word := x.bits.toNat_lt
  have bits : (if x.isNegative then signOffset + x.code else x.code) = x.bits.toNat := by
    by_cases negative : signOffset ≤ x.bits.toNat
    · rw [isNegative, decide_eq_true negative, if_pos rfl, code]
      rw [signOffset] at negative ⊢
      omega
    · rw [isNegative, decide_eq_false negative, if_neg Bool.false_ne_true, code]
      rw [signOffset] at negative ⊢
      omega
  rw [ofCode, bits, UInt64.ofNat_toNat]

/-- In any layout a double is read back as it is, and what is no number as the one that is shown
alike. -/
theorem double?_chars (l : Layout) (x : Binary64) :
    double? (l.chars x) = some (if x.isNaN then .notANumber else x) := by
  rw [Layout.chars]
  by_cases nan : x.isNaN = true
  · rw [if_pos nan, if_pos nan]
    rfl
  · rw [if_neg nan, if_neg nan]
    have back {cs : List Char} (tells : TellsCode cs x.code) :
        double? (sign x.isNegative ++ cs) = some x := by
      rw [tells.double?, ofCode_code]
    apply back
    by_cases infinite : x.isInfinite = true
    · have code : x.code = infinityCode := of_decide_eq_true infinite
      rw [if_pos infinite, code]
      exact .infinity
    by_cases zero : x.isZero = true
    · have code : x.code = 0 := of_decide_eq_true zero
      rw [if_neg infinite, if_pos zero, code]
      exact .zero
    · have positive : 0 < x.code := Nat.pos_of_ne_zero fun none => zero (decide_eq_true none)
      have finite : x.code < infinityCode := by
        have bound : ¬ infinityCode < x.code := fun more => nan (decide_eq_true more)
        have other : x.code ≠ infinityCode := fun same => infinite (decide_eq_true same)
        omega
      rw [if_neg infinite, if_neg zero]
      have tells := TellsCode.laidOut (shortest l.tie x.code) l
      rwa [code_shortest l.tie positive finite] at tells

-- two decimals of seventeen digits are equally near to this power of two
example : double? "2.9802322387695313e-8".toList = some ⟨0x3E60000000000000⟩ ∧
    double? "0.000000029802322387695312".toList = some ⟨0x3E60000000000000⟩ := by
  decide +kernel

theorem chars_subset_laidOut (l : Layout) (x : Binary64) : l.chars x ⊆ Scientific.laidOutChars := by
  rw [Layout.chars]
  split
  · decide
  · refine List.append_subset.mpr ⟨?_, ?_⟩
    · split <;> decide
    · split
      · decide
      · split
        · decide
        · exact Scientific.laidOut_subset _ l

end Cadence.Decimal
