import Cadence.Proofs.Decimal.Reading
import Cadence.Proofs.Text.StatusLine

namespace Cadence

open Decimal

@[ext] structure Parts where
  count : List Char
  rate : List Char
  elapsed : List Char

@[ext] structure Said where
  count : Nat
  rate : Reading
  elapsed : Reading

structure Parts.Tell (parts : Parts) (said : Said) : Prop where
  count : Canonical said.count parts.count
  rate : Spells 6 said.rate parts.rate
  elapsed : Spells 6 said.elapsed parts.elapsed

namespace Parts

variable {parts parts' : Parts} {said said' : Said}

def line (parts : Parts) : List Char :=
  '[' :: parts.count ++ ", ".toList ++ parts.rate ++ " record/s, elapsed ".toList ++
    parts.elapsed ++ " seconds.]".toList

theorem Tell.words (tell : parts.Tell said) :
    parts.line.splitOn ' ' = ['[' :: parts.count ++ [','], parts.rate, "record/s,".toList,
      "elapsed".toList, parts.elapsed, "seconds.]".toList] := by
  have words := Report.splitOn_line (numeral_subset tell.count.value) tell.rate.subset
    tell.elapsed.subset (List.not_mem_nil (a := ' '))
  rwa [List.append_nil, List.append_nil] at words

theorem Tell.unique (tell : parts.Tell said) (tell' : parts'.Tell said')
    (same : parts.line = parts'.line) : parts = parts' ∧ said = said' := by
  have words := congrArg (List.splitOn ' ') same
  rw [tell.words, tell'.words] at words
  simp only [List.cons.injEq, true_and, and_true, List.append_cancel_right_eq] at words
  obtain ⟨count, rate, elapsed⟩ := words
  have counts := tell.count.value
  rw [count, tell'.count.value] at counts
  have number := (Option.some.inj counts).symm
  have rates := tell.rate.reading_unique tell'.rate rate
  have elapseds := tell.elapsed.reading_unique tell'.elapsed elapsed
  exact ⟨Parts.ext count rate elapsed, Said.ext number rates elapseds⟩

theorem Tell.text_unique (tell : parts.Tell said) (tell' : parts'.Tell said) : parts = parts' :=
  Parts.ext (tell.count.unique tell'.count) (tell.rate.text_unique tell'.rate)
    (tell.elapsed.text_unique tell'.elapsed)

end Parts

namespace Report

structure Means (r : Report) (said : Said) : Prop where
  count : said.count = r.count.toNat
  rate : r.rate.ReadsAs 6 said.rate
  elapsed : r.elapsed.ReadsAs 6 said.elapsed

theorem tells (r : Report) :
    ∃ parts said, r.text.toList = Parts.line parts ∧ parts.Tell said ∧ r.Means said := by
  obtain ⟨rate, reads, spells⟩ := Binary64.spells_fixedChars 6 r.rate
  obtain ⟨elapsed, reads', spells'⟩ := Binary64.spells_fixedChars 6 r.elapsed
  exact ⟨⟨chars r.count.toNat, fixedChars 6 r.rate, fixedChars 6 r.elapsed⟩,
    ⟨r.count.toNat, rate, elapsed⟩, r.toList_text, ⟨.chars _, spells, spells'⟩,
    ⟨rfl, reads, reads'⟩⟩

/-- The text of a report is a status line in one way only, and tells the count and the values of the
two doubles rounded once. A report prints alike if and only if these are the same. -/
theorem text_tells (r : Report) :
    ∃ parts said, r.text.toList = Parts.line parts ∧ parts.Tell said ∧ r.Means said ∧
      (∀ parts' said', r.text.toList = Parts.line parts' → parts'.Tell said' →
        parts' = parts ∧ said' = said) ∧
      ∀ s : Report, s.text = r.text ↔
        s.count = r.count ∧ s.rate.ReadsAs 6 said.rate ∧ s.elapsed.ReadsAs 6 said.elapsed := by
  obtain ⟨parts, said, text, tell, means⟩ := r.tells
  refine ⟨parts, said, text, tell, means, ?single, ?alike⟩
  case single =>
    intro parts' said' text' tell'
    exact tell'.unique tell (text'.symm.trans text)
  case alike =>
    intro s
    obtain ⟨parts', said', text', tell', means'⟩ := s.tells
    constructor
    · intro same
      have lines : parts'.line = parts.line := by
        rw [← text', same, text]
      obtain ⟨_, rfl⟩ := tell'.unique tell lines
      have count : s.count = r.count := by
        rw [← UInt64.toNat_inj, ← means'.count, means.count]
      exact ⟨count, means'.rate, means'.elapsed⟩
    · rintro ⟨count, rate, elapsed⟩
      have counts := means'.count.trans ((congrArg UInt64.toNat count).trans means.count.symm)
      obtain rfl : said' = said :=
        Said.ext counts (means'.rate.unique rate) (means'.elapsed.unique elapsed)
      rw [← String.toList_inj, text', text, tell'.text_unique tell]

end Report

end Cadence
