import Cadence.Proofs.Decimal.Numerals
import Cadence.Report

namespace Cadence

structure Printed where
  count : Nat
  rate : List Char
  elapsed : List Char
deriving DecidableEq

namespace Report

def printed (r : Report) : Printed where
  count := r.count.toNat
  rate := Decimal.fixedChars 6 r.rate
  elapsed := Decimal.fixedChars 6 r.elapsed

def readLine? (line : List Char) : Option Printed :=
  match line.splitOn ' ' with
  | ('[' :: count) :: rate :: _ :: _ :: elapsed :: _ =>
    (Decimal.number? count.dropLast).map fun count => { count, rate, elapsed }
  | _ => none

theorem toList_text (r : Report) :
    r.text.toList = '[' :: Decimal.chars r.count.toNat ++ ", ".toList ++
      Decimal.fixedChars 6 r.rate ++ " record/s, elapsed ".toList ++
      Decimal.fixedChars 6 r.elapsed ++ " seconds.]".toList := by
  simp [text, pieces, Decimal.text, Decimal.fixed]

def lineChars : List Char := Decimal.numberChars ++ "[,] record/s elapsed".toList

theorem text_subset (r : Report) : r.text.toList ⊆ lineChars := by
  have number {cs : List Char} (numeral : cs ⊆ Decimal.numberChars) : cs ⊆ lineChars :=
    List.subset_append_of_subset_left _ numeral
  rw [toList_text]
  refine List.append_subset.mpr ⟨?_, by decide⟩
  refine List.append_subset.mpr ⟨?_, number (Decimal.fixedChars_subset 6 r.elapsed)⟩
  refine List.append_subset.mpr ⟨?_, by decide⟩
  refine List.append_subset.mpr ⟨?_, number (Decimal.fixedChars_subset 6 r.rate)⟩
  refine List.append_subset.mpr ⟨?_, by decide⟩
  exact List.cons_subset.mpr ⟨by decide, number (Decimal.chars_subset _)⟩

/-- A status line is cut at its blanks into six words. -/
theorem splitOn_line {count rate elapsed rest : List Char} (counts : count ⊆ Decimal.numberChars)
    (rates : rate ⊆ Decimal.numberChars) (elapseds : elapsed ⊆ Decimal.numberChars)
    (solid : ' ' ∉ rest) :
    ('[' :: count ++ ", ".toList ++ rate ++ " record/s, elapsed ".toList ++ elapsed ++
        " seconds.]".toList ++ rest).splitOn ' ' =
      ['[' :: count ++ [','], rate, "record/s,".toList, "elapsed".toList, elapsed,
        "seconds.]".toList ++ rest] := by
  have blankless {cs : List Char} (numeral : cs ⊆ Decimal.numberChars) : ' ' ∉ cs := by
    intro blank
    exact absurd (numeral blank) (by decide)
  have words : '[' :: count ++ ", ".toList ++ rate ++ " record/s, elapsed ".toList ++ elapsed ++
      " seconds.]".toList ++ rest = [' '].intercalate ['[' :: count ++ [','], rate,
        "record/s,".toList, "elapsed".toList, elapsed, "seconds.]".toList ++ rest] := by
    simp [List.intercalate]
  rw [words, List.splitOn_intercalate]
  · simp [blankless counts, blankless rates, blankless elapseds, solid]
  · simp

theorem readLine?_text (r : Report) (rest : List Char) (solid : ' ' ∉ rest) :
    readLine? (r.text.toList ++ rest) = some r.printed := by
  rw [readLine?, toList_text, splitOn_line (Decimal.chars_subset _)
    (Decimal.fixedChars_subset 6 r.rate) (Decimal.fixedChars_subset 6 r.elapsed) solid]
  simp [printed, Decimal.number?_chars]

end Report

end Cadence
