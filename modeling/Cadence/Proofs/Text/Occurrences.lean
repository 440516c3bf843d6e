import Mathlib.Data.List.Infix

namespace Cadence

def occurrences (word text : List Char) : Nat := text.tails.countP (word.isPrefixOf ·)

theorem occurrences_cons (word : List Char) (c : Char) (text : List Char) :
    occurrences word (c :: text) =
      occurrences word text + if word.isPrefixOf (c :: text) then 1 else 0 := by
  rw [occurrences, List.tails_cons, List.countP_cons]
  rfl

section

variable {body : List Char} {stop : Char}

theorem takeWhile_before_stop {front : List Char} (stopless : stop ∉ front) (rest : List Char) :
    (front ++ stop :: rest).takeWhile (· ≠ stop) = front := by
  have before (c : Char) (member : c ∈ front) : decide (c ≠ stop) = true := by
    apply decide_eq_true
    rintro rfl
    exact stopless member
  rw [List.takeWhile_append_of_pos before, List.takeWhile_cons_of_neg (by simp), List.append_nil]

theorem isPrefixOf_before_stop (alone : stop ∉ body) {front : List Char} (stopless : stop ∉ front)
    (rest : List Char) :
    (body ++ [stop]).isPrefixOf (front ++ stop :: rest) = true ↔ body = front := by
  rw [List.isPrefixOf_iff_prefix]
  constructor
  · rintro ⟨after, same⟩
    rw [List.append_assoc, List.singleton_append] at same
    rw [← takeWhile_before_stop alone after, same, takeWhile_before_stop stopless rest]
  · rintro rfl
    exact ⟨rest, by rw [List.append_assoc, List.singleton_append]⟩

theorem occurrences_stopless {text : List Char} (stopless : stop ∉ text) :
    occurrences (body ++ [stop]) text = 0 := by
  rw [occurrences, List.countP_eq_zero]
  intro tail member here
  have part : tail <:+ text := (List.mem_tails _ _).mp member
  have word : body ++ [stop] <+: tail := List.isPrefixOf_iff_prefix.mp here
  exact stopless (part.subset (word.subset (by simp)))

/-- The first stop of a text ends the word if the rest of the word comes before it. -/
theorem occurrences_stop (alone : stop ∉ body) {front : List Char} (stopless : stop ∉ front)
    (rest : List Char) :
    occurrences (body ++ [stop]) (front ++ stop :: rest) =
      occurrences (body ++ [stop]) rest + if body <:+ front then 1 else 0 := by
  induction front with
  | nil =>
    rw [List.nil_append, occurrences_cons]
    have single := isPrefixOf_before_stop alone List.not_mem_nil rest
    rw [List.nil_append] at single
    simp only [single, List.suffix_nil]
  | cons c front further =>
    have here := isPrefixOf_before_stop alone stopless rest
    have later : stop ∉ front := fun member => stopless (List.mem_cons_of_mem c member)
    rw [List.cons_append] at here ⊢
    rw [occurrences_cons, further later, Nat.add_assoc]
    congr 1
    by_cases word : body = c :: front
    · -- the word is too long to stand in the rest as well
      have short : ¬ body <:+ front := by
        intro suffix
        have length := suffix.length_le
        rw [word, List.length_cons] at length
        omega
      rw [if_neg short, if_pos (here.mpr word), if_pos (word ▸ List.suffix_refl _)]
    · have suffix : body <:+ c :: front ↔ body <:+ front := by
        rw [List.suffix_cons_iff, or_iff_right word]
      rw [if_neg (mt here.mp word), Nat.add_zero]
      simp only [suffix]

end

section

variable {α : Type} [DecidableEq α]

theorem countP_tails_getElem? (stop : α) (k : Nat) (text : List α) :
    text.tails.countP (·[k]? = some stop) = (text.drop k).count stop := by
  induction text generalizing k with
  | nil => simp
  | cons a text rest =>
    rw [List.tails_cons, List.countP_cons, rest]
    cases k with
    | zero => simp [List.count_cons]
    | succ k =>
      rw [List.drop_succ_cons, List.getElem?_cons_succ]
      by_cases inside : k < text.length
      · rw [List.drop_eq_getElem_cons inside, List.count_cons, List.getElem?_eq_getElem inside]
        simp
      · rw [List.drop_eq_nil_of_le (by omega), List.drop_eq_nil_of_le (by omega),
          List.getElem?_eq_none (by omega)]
        simp

theorem countP_isPrefixOf_le_count (word : List α) (stop : α) (text : List α) :
    text.tails.countP ((word ++ [stop]).isPrefixOf ·) ≤ text.count stop := by
  have last (tail : List α) (here : (word ++ [stop]).isPrefixOf tail = true) :
      tail[word.length]? = some stop := by
    obtain ⟨after, rfl⟩ := List.isPrefixOf_iff_prefix.mp here
    simp
  calc text.tails.countP ((word ++ [stop]).isPrefixOf ·)
      ≤ text.tails.countP (·[word.length]? = some stop) :=
        List.countP_mono_left fun tail _ here => decide_eq_true (last tail here)
    _ = (text.drop word.length).count stop := countP_tails_getElem? stop word.length text
    _ ≤ text.count stop := (List.drop_sublist _ _).count_le stop

theorem countP_isPrefixOf_append {word : List α} (some : word ≠ []) (first second : List α) :
    first.tails.countP (word.isPrefixOf ·) + second.tails.countP (word.isPrefixOf ·) ≤
      (first ++ second).tails.countP (word.isPrefixOf ·) := by
  induction first with
  | nil =>
    have none : ([] : List α).tails.countP (word.isPrefixOf ·) = 0 := by
      cases word with
      | nil => exact absurd rfl some
      | cons a word => rfl
    rw [none, Nat.zero_add, List.nil_append]
  | cons a first rest =>
    have here : (if word.isPrefixOf (a :: first) then 1 else 0) ≤
        if word.isPrefixOf (a :: (first ++ second)) then 1 else 0 := by
      by_cases front : word.isPrefixOf (a :: first) = true
      · have longer : word <+: a :: (first ++ second) :=
          (List.isPrefixOf_iff_prefix.mp front).trans (List.prefix_append (a :: first) second)
        rw [if_pos front, if_pos (List.isPrefixOf_iff_prefix.mpr longer)]
      · rw [if_neg front]
        exact Nat.zero_le _
    rw [List.cons_append, List.tails_cons, List.tails_cons, List.countP_cons, List.countP_cons]
    omega

end

end Cadence
