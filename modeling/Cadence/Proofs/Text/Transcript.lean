import Cadence.Proofs.Meter.Course
import Cadence.Proofs.Text.Occurrences
import Cadence.Proofs.Text.StatusLine

namespace Cadence

variable {δ : Type}

namespace Call

def line (call : Call δ) : List Char :=
  call.report.text.toList ++ if call.occasion = .closing then Meter.doneMarker.toList else []

def said (call : Call δ) : String :=
  "\r" ++ call.report.text ++ if call.occasion = .closing then Meter.doneMarker else ""

theorem toList_said (call : Call δ) : call.said.toList = '\r' :: call.line := by
  rw [said, line, String.toList_append, String.toList_append]
  split <;> rfl

theorem line_of_closing {call : Call δ} (closing : call.occasion = .closing) :
    call.line = call.report.text.toList ++ Meter.doneMarker.toList := by
  rw [line, if_pos closing]

theorem line_of_not_closing {call : Call δ} (going : call.occasion ≠ .closing) :
    call.line = call.report.text.toList := by
  rw [line, if_neg going, List.append_nil]

theorem return_not_mem_line (call : Call δ) : '\r' ∉ call.line := by
  intro member
  rw [line, List.mem_append] at member
  rcases member with member | member
  · exact absurd (call.report.text_subset member) (by decide)
  · split at member
    · exact absurd member (by decide)
    · cases member

theorem readLine?_line (call : Call δ) : Report.readLine? call.line = some call.report.printed := by
  apply Report.readLine?_text
  split <;> decide

end Call

def transcript (made : List (Call δ)) : String := String.join (made.map Call.said)

theorem toList_transcript (made : List (Call δ)) :
    (transcript made).toList = made.flatMap fun call => '\r' :: call.line := by
  rw [transcript, String.toList_join, List.flatMap_map]
  simp only [Call.toList_said]

theorem count_return_transcript (made : List (Call δ)) :
    (transcript made).toList.count '\r' = made.length := by
  rw [toList_transcript]
  induction made with
  | nil => rfl
  | cons call made rest =>
    rw [List.flatMap_cons, List.count_append, List.count_cons_self, rest,
      List.count_eq_zero.mpr call.return_not_mem_line, List.length_cons]
    omega

theorem splitOn_flatMap_lines {front : List Char} (whole : '\r' ∉ front) (made : List (Call δ)) :
    (front ++ made.flatMap fun call => '\r' :: call.line).splitOn '\r' =
      front :: made.map Call.line := by
  induction made generalizing front with
  | nil => rw [List.flatMap_nil, List.append_nil, List.splitOn_eq_singleton whole, List.map_nil]
  | cons call made rest =>
    rw [List.flatMap_cons, List.cons_append, List.splitOn_append_cons_self_of_not_mem whole,
      rest call.return_not_mem_line, List.map_cons]

theorem read_transcript (made : List (Call δ)) :
    ((transcript made).toList.splitOn '\r').tail.map Report.readLine? =
      made.map fun call => some call.report.printed := by
  have lines := splitOn_flatMap_lines List.not_mem_nil made
  rw [toList_transcript, ← List.nil_append (made.flatMap _), lines, List.tail_cons, List.map_map]
  simp only [Function.comp_def, Call.readLine?_line]

def markerBody : List Char := "...Done!".toList

theorem toList_doneMarker : Meter.doneMarker.toList = markerBody ++ ['\n'] := by decide

theorem occurrences_flatMap_lines {front : List Char} (stopless : '\n' ∉ front)
    (made : List (Call δ)) :
    occurrences Meter.doneMarker.toList (front ++ made.flatMap fun call => '\r' :: call.line) =
      made.countP (·.occasion = .closing) := by
  have texts (call : Call δ) : '\n' ∉ '\r' :: call.report.text.toList := by
    intro member
    rcases List.mem_cons.mp member with same | member
    · exact absurd same (by decide)
    · exact absurd (call.report.text_subset member) (by decide)
  induction made generalizing front with
  | nil =>
    rw [List.flatMap_nil, List.append_nil, toList_doneMarker, occurrences_stopless stopless]
    rfl
  | cons call made rest =>
    have before : '\n' ∉ front ++ '\r' :: call.report.text.toList :=
      List.not_mem_append stopless (texts call)
    rw [List.flatMap_cons, List.countP_cons]
    by_cases closing : call.occasion = .closing
    · have body : '\n' ∉ markerBody := by decide
      have parts : front ++ ('\r' :: call.line ++ made.flatMap fun call => '\r' :: call.line) =
          (front ++ '\r' :: call.report.text.toList ++ markerBody) ++
            '\n' :: ([] ++ made.flatMap fun call => '\r' :: call.line) := by
        rw [Call.line_of_closing closing, toList_doneMarker]
        simp only [List.append_assoc, List.cons_append, List.nil_append]
      have stopped := occurrences_stop body (List.not_mem_append before body)
        ([] ++ made.flatMap fun call => '\r' :: call.line)
      rw [← toList_doneMarker, rest (by simp), if_pos (List.suffix_append _ _)] at stopped
      rw [parts, stopped, if_pos (decide_eq_true closing)]
    · have parts : front ++ ('\r' :: call.line ++ made.flatMap fun call => '\r' :: call.line) =
          (front ++ '\r' :: call.report.text.toList) ++
            made.flatMap fun call => '\r' :: call.line := by
        rw [Call.line_of_not_closing closing, List.append_assoc]
      rw [parts, rest before, if_neg (by simpa using closing)]
      rfl

theorem occurrences_transcript (made : List (Call δ)) :
    occurrences Meter.doneMarker.toList (transcript made).toList =
      made.countP (·.occasion = .closing) := by
  rw [toList_transcript]
  exact occurrences_flatMap_lines List.not_mem_nil made

end Cadence
