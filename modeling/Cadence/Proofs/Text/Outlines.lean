import Cadence.Meter.Count
import Cadence.Proofs.Decimal.ReadBack
import Cadence.Report

namespace Cadence

namespace Binary64

/-- Two doubles with the same bits, or both of them no number. -/
def Alike (x y : Binary64) : Prop := x.bits = y.bits ∨ x.isNaN = true ∧ y.isNaN = true

def settled (x : Binary64) : Binary64 := if x.isNaN then notANumber else x

theorem settled_nan {x : Binary64} (nan : x.isNaN = true) : x.settled = notANumber := if_pos nan

theorem settled_number {x : Binary64} (number : ¬ x.isNaN = true) : x.settled = x := if_neg number

theorem settled_alike (x : Binary64) : x.settled.Alike x := by
  by_cases nan : x.isNaN = true
  · rw [settled_nan nan]
    exact .inr ⟨by decide, nan⟩
  · rw [settled_number nan]
    exact .inl rfl

theorem isNaN_settled (x : Binary64) : x.settled.isNaN = x.isNaN := by
  by_cases nan : x.isNaN = true
  · rw [settled_nan nan, nan]
    decide
  · rw [settled_number nan]

theorem alike_iff {x y : Binary64} : x.Alike y ↔ x.settled = y.settled := by
  constructor
  · rintro (same | ⟨nan, nan'⟩)
    · exact congrArg (settled ∘ mk) same
    · rw [settled_nan nan, settled_nan nan']
  · intro same
    have both := congrArg isNaN same
    rw [isNaN_settled, isNaN_settled] at both
    by_cases nan : x.isNaN = true
    · exact .inr ⟨nan, both.symm.trans nan⟩
    · have number : ¬ y.isNaN = true := both ▸ nan
      rw [settled_number nan, settled_number number] at same
      exact .inl (congrArg bits same)

end Binary64

namespace Decimal

theorem Layout.chars_settled (l : Layout) (x : Binary64) : l.chars x.settled = l.chars x := by
  by_cases nan : x.isNaN = true
  · rw [Binary64.settled_nan nan, Layout.chars, Layout.chars, if_pos nan]
    rfl
  · rw [Binary64.settled_number nan]

end Decimal

namespace Report

structure Alike (r s : Report) : Prop where
  count : r.count = s.count
  rate : r.rate.Alike s.rate
  elapsed : r.elapsed.Alike s.elapsed

def settled (r : Report) : Report := ⟨r.count, r.rate.settled, r.elapsed.settled⟩

theorem settled_alike (r : Report) : r.settled.Alike r :=
  ⟨rfl, r.rate.settled_alike, r.elapsed.settled_alike⟩

theorem alike_iff {r s : Report} : r.Alike s ↔ r.settled = s.settled := by
  rw [settled, settled, Report.mk.injEq, ← Binary64.alike_iff, ← Binary64.alike_iff]
  constructor
  · intro alike
    exact ⟨alike.count, alike.rate, alike.elapsed⟩
  · rintro ⟨count, rate, elapsed⟩
    exact ⟨count, rate, elapsed⟩

theorem outline_settled (r : Report) : r.settled.outline = r.outline := by
  simp only [outline, settled, Decimal.Layout.text, Decimal.Layout.chars_settled]

def isGap (c : Char) : Bool := c = ' ' || c = ',' || c = '\n'

def words (cs : List Char) : List (List Char) := (cs.splitOnP isGap).filter (· ≠ [])

def count? (cs : List Char) : Option UInt64 :=
  ((Decimal.number? cs).filter (· ≤ Count.greatest.toNat)).map UInt64.ofNat

def ofOutline? (text : String) : Option Report :=
  match (words text.toList).map String.ofList with
  | ["ProgressSample", "\x7b", "count:", count, "rate:", rate, "elapsed:", elapsed, "\x7d"] => do
    let count ← count? count.toList
    let rate ← Decimal.double? rate.toList
    let elapsed ← Decimal.double? elapsed.toList
    return { count, rate, elapsed }
  | _ => none

theorem words_append_cons {gap : Char} (separates : isGap gap = true) (front back : List Char) :
    words (front ++ gap :: back) = words front ++ words back := by
  rw [words, words, words, List.splitOnP_append_cons _ _ separates, List.filter_append]

theorem words_solid {word : List Char} (letters : word ≠ []) (solid : ∀ c ∈ word, isGap c = false) :
    words word = [word] := by
  rw [words, List.splitOnP_eq_singleton solid]
  simp [letters]

theorem count?_chars (n : UInt64) : count? (Decimal.chars n.toNat) = some n := by
  have small := Count.toNat_le_greatest n
  rw [count?, Decimal.number?_chars]
  simp [small]

theorem toList_line (r : Report) :
    r.outline.line.toList = "ProgressSample \x7b count:".toList ++ ' ' ::
      (Decimal.chars r.count.toNat ++ ',' :: (" rate:".toList ++ ' ' ::
        (Decimal.described.chars r.rate ++ ',' :: (" elapsed:".toList ++ ' ' ::
          (Decimal.described.chars r.elapsed ++ ' ' :: "\x7d".toList))))) := by
  simp [outline, Outline.line, Outline.lineField, Outline.lineFields, Decimal.text,
    Decimal.Layout.text]

theorem toList_block (r : Report) :
    (r.outline.block 0).toList = "ProgressSample \x7b\n    count:".toList ++ ' ' ::
      (Decimal.chars r.count.toNat ++ ',' :: ("\n    rate:".toList ++ ' ' ::
        (Decimal.described.chars r.rate ++ ',' :: ("\n    elapsed:".toList ++ ' ' ::
          (Decimal.described.chars r.elapsed ++ ',' :: "\n\x7d".toList))))) := by
  simp [outline, Outline.block, Outline.blockField, Outline.blockFields, Outline.indent,
    Decimal.text, Decimal.Layout.text]

theorem words_count (n : Nat) : words (Decimal.chars n) = [Decimal.chars n] := by
  have solid : ∀ c ∈ Decimal.numberChars, isGap c = false := by simp [Decimal.numberChars, isGap]
  exact words_solid (Decimal.chars_ne_nil n) fun c member => solid c (Decimal.chars_subset n member)

theorem words_double (l : Decimal.Layout) (x : Binary64) : words (l.chars x) = [l.chars x] := by
  have solid : ∀ c ∈ Decimal.Scientific.laidOutChars, isGap c = false := by
    simp [Decimal.Scientific.laidOutChars, Decimal.numberChars, isGap]
  have letters : l.chars x ≠ [] := by
    intro none
    have read := Decimal.double?_chars l x
    rw [none] at read
    cases read
  exact words_solid letters fun c member => solid c (Decimal.chars_subset_laidOut l x member)

/-- Texts of the three fields of a report, with words before, between and after them. -/
theorem ofOutline?_spaced (r : Report) {text : String} {front second third back : List Char}
    {stop : Char} (shape : text.toList = front ++ ' ' ::
      (Decimal.chars r.count.toNat ++ ',' :: (second ++ ' ' ::
        (Decimal.described.chars r.rate ++ ',' :: (third ++ ' ' ::
          (Decimal.described.chars r.elapsed ++ stop :: back))))))
    (separates : isGap stop = true)
    (labels : words front = ["ProgressSample".toList, "\x7b".toList, "count:".toList] ∧
      words second = ["rate:".toList] ∧ words third = ["elapsed:".toList] ∧
      words back = ["\x7d".toList]) : ofOutline? text = some r.settled := by
  obtain ⟨first, second, third, last⟩ := labels
  rw [ofOutline?, shape, words_append_cons rfl, words_append_cons rfl, words_append_cons rfl,
    words_append_cons rfl, words_append_cons rfl, words_append_cons separates, first, second, third,
    last, words_count, words_double, words_double]
  simp only [List.cons_append, List.nil_append, List.map_cons, List.map_nil, String.ofList_toList]
  simp only [String.toList_ofList, count?_chars, Decimal.double?_chars]
  rfl

theorem ofOutline?_line (r : Report) : ofOutline? r.outline.line = some r.settled :=
  r.ofOutline?_spaced r.toList_line rfl (by decide)

theorem ofOutline?_block (r : Report) : ofOutline? (r.outline.block 0) = some r.settled :=
  r.ofOutline?_spaced r.toList_block rfl (by decide)

theorem alike_of_outlines {r s : Report} (describe : Outline → String)
    (back : ∀ r : Report, ofOutline? (describe r.outline) = some r.settled) :
    describe r.outline = describe s.outline ↔ r.Alike s := by
  rw [alike_iff]
  constructor
  · intro same
    have read := congrArg ofOutline? same
    rw [back, back] at read
    exact Option.some.inj read
  · intro same
    rw [← outline_settled r, same, outline_settled]

/-- Both outlines of a report tell its count and its doubles, up to what is no number, and are read
back as them: of a text of digits, in whatever layout, reading gives the nearest double. -/
theorem outlines_alike (r s : Report) :
    (r.outline.line = s.outline.line ↔ r.Alike s) ∧
    (r.outline.block 0 = s.outline.block 0 ↔ r.Alike s) ∧
    (∃ back, ofOutline? r.outline.line = some back ∧ back.Alike r) ∧
    (∃ back, ofOutline? (r.outline.block 0) = some back ∧ back.Alike r) ∧
    (∀ (l : Decimal.Layout) (x : Binary64),
      ∃ back, Decimal.double? (l.chars x) = some back ∧ back.Alike x) ∧
    ∀ d : Decimal.Scientific, Binary64.Nearest d.value d.code := by
  have double (l : Decimal.Layout) (x : Binary64) : Decimal.double? (l.chars x) = some x.settled :=
    Decimal.double?_chars l x
  exact ⟨alike_of_outlines Outline.line ofOutline?_line,
    alike_of_outlines (Outline.block 0) ofOutline?_block,
    ⟨r.settled, r.ofOutline?_line, r.settled_alike⟩,
    ⟨r.settled, r.ofOutline?_block, r.settled_alike⟩,
    fun l x => ⟨x.settled, double l x, x.settled_alike⟩,
    Decimal.Scientific.nearest_code⟩

end Report

end Cadence
