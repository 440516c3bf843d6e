import Cadence.Proofs.Json.Passing
import Cadence.Settings.Entries
import Cadence.Settings.Reading

namespace Cadence.Settings

open Json (Token Tree Letter Tells)

theorem intervalFront_of_tells {v : Json} {ts : List Token} (tells : Tells (.value v) ts)
    (rest : List Token) :
    intervalFront (ts ++ rest) = ((intervalOf v).mapError .data).map (·, rest) := by
  cases tells with
  | @scalar t v valued =>
    obtain ⟨bracket, brace, _, _⟩ := Token.ne_bracket_of_scalar? valued
    rw [List.singleton_append, intervalFront, valued]
    · cases found : intervalOf v with
      | error e =>
        simp only [found]
        rfl
      | ok n =>
        simp only [found]
        rfl
    · exact bracket
    · exact brace
  | _ => rfl

/-- An entry after which others come. -/
theorem intervalAmong_cons (found : Option UInt64) (entry : String × Json)
    (entries : List (String × Json)) :
    intervalAmong found (entry :: entries) =
      intervalAmong found [entry] >>= fun found => intervalAmong found entries := by
  obtain ⟨key, v⟩ := entry
  simp only [intervalAmong]
  split
  · split
    · rfl
    · cases intervalOf v <;> rfl
  · rfl

theorem memberFront_of_tells {key : String} {v : Json} {letters : List Letter} {ts : List Token}
    (means : Letter.text? letters = some key.toList) (tells : Tells (.value v) ts)
    (found : Option UInt64) (rest : List Token) :
    memberFront found (.string letters :: .colon :: (ts ++ rest)) =
      ((intervalAmong found [(key, v)]).mapError .data).map (·, rest) := by
  simp only [memberFront, means, String.ofList_toList, intervalAmong]
  split
  · split
    · rfl
    · rw [intervalFront_of_tells tells]
      cases intervalOf v <;> rfl
  · -- an unknown member, of which the value only has to be passed over
    obtain ⟨tree, passed⟩ := tells.ofTokens? rest
    rw [passed]
    rfl

theorem members_of_tells {entries : List (String × Json)} {ts : List Token}
    (tells : Tells (.members entries) ts) (found : Option UInt64) {fuel : Nat}
    (enough : ts.length ≤ fuel) :
    members fuel found (ts ++ [.closeBrace]) =
      ((intervalAmong found entries).mapError .data).map ofFound := by
  generalize phrase : Json.Phrase.members entries = told at tells
  induction tells generalizing entries found fuel with
  | @member key v letters ts means value _ =>
    cases phrase
    cases fuel with
    | zero => cases enough
    | succ fuel =>
      have front := memberFront_of_tells means value found [.closeBrace]
      rw [List.cons_append, List.cons_append, members, front]
      cases intervalAmong found [(key, v)] <;> rfl
  | @members key v others letters ts more means value _ _ rest =>
    cases phrase
    cases fuel with
    | zero => cases enough
    | succ fuel =>
      have front := memberFront_of_tells means value found (.comma :: (more ++ [.closeBrace]))
      rw [List.cons_append, List.cons_append, List.append_assoc, List.cons_append, members, front,
        intervalAmong_cons found (key, v) others]
      simp only [List.length_cons, List.length_append] at enough
      cases intervalAmong found [(key, v)] with
      | error e => rfl
      | ok found => exact rest found (by omega) rfl
  | _ => cases phrase

/-- The order of entries under distinct keys does not matter. -/
theorem intervalAmong_perm {written entries : List (String × Json)} (order : written.Perm entries)
    (distinct : (entries.map Prod.fst).Nodup) (found : Option UInt64) :
    intervalAmong found written = intervalAmong found entries := by
  induction order generalizing found with
  | nil => rfl
  | @cons entry some others _ more =>
    rw [intervalAmong_cons found entry some, intervalAmong_cons found entry others]
    have distinct := (List.nodup_cons.mp distinct).2
    cases intervalAmong found [entry] with
    | error e => rfl
    | ok found => exact more distinct found
  | swap first second entries =>
    obtain ⟨key, v⟩ := first
    obtain ⟨other, w⟩ := second
    have apart : ¬ key = other := by
      intro same
      simp [same] at distinct
    by_cases here : key = intervalKey
    · have there : ¬ other = intervalKey := fun same => apart (here.trans same.symm)
      simp only [intervalAmong, here, there, if_pos, if_neg, not_false_eq_true]
    · simp only [intervalAmong, here, if_neg, not_false_eq_true]
  | trans former latter first second =>
    have between := (latter.map Prod.fst).nodup_iff.mpr distinct
    exact (first between found).trans (second distinct found)

theorem ofJson_of_scalar {t : Token} {v : Json} (valued : t.scalar? = some v) :
    ofJson v = .error (.wrongType (.ofJson v) .settings) := by
  cases t with
  | null | bool b =>
    cases valued
    rfl
  | numeral n =>
    rcases Json.Numeral.value?_number valued with ⟨k, rfl⟩ | ⟨x, rfl⟩ <;> rfl
  | string letters =>
    obtain ⟨cs, _, rfl⟩ := Option.map_eq_some_iff.mp valued
    rfl
  | _ => cases valued

theorem ofTokens_scalar {t : Token} {v : Json} (valued : t.scalar? = some v) :
    ofTokens [t] = (ofJson v).mapError .data := by
  rw [ofJson_of_scalar valued]
  cases t with
  | null | bool b | numeral n | string letters =>
    simp only [ofTokens, valued]
    rfl
  | _ => cases valued

theorem ofTokens_array {ts : List Token} (starts : ts.head? ≠ some .closeBracket) :
    ofTokens (.openBracket :: ts) = match intervalFront ts with
      | .ok (n, .closeBracket :: rest) => ended (some n) rest
      | .ok _ => .error .malformed
      | .error e => .error e := by
  cases ts with
  | nil => rfl
  | cons t rest =>
    cases t with
    | closeBracket => exact absurd rfl starts
    | _ => rfl

theorem ofTokens_object {ts : List Token} (starts : ts.head? ≠ some .closeBrace) :
    ofTokens (.openBrace :: ts) = members ts.length none ts := by
  cases ts with
  | nil => rfl
  | cons t rest =>
    cases t with
    | closeBrace => exact absurd rfl starts
    | _ => rfl

def Overlong (v : Json) : Prop :=
  ∃ n item items, v = .array (.integer n :: item :: items) ∧ 0 ≤ n ∧ n < 2 ^ 64

theorem integer_of_interval {v : Json} {n : UInt64} (found : intervalOf v = .ok n) :
    ∃ k, v = .integer k ∧ 0 ≤ k := by
  cases v with
  | integer k =>
    rw [intervalOf] at found
    split at found
    · cases found
    · exact ⟨k, rfl, by omega⟩
  | _ => cases found

theorem ofTokens_of_tells {v : Json} {ts : List Token} (tells : Tells (.value v) ts)
    (distinct : ∀ entries, v = .object entries → (entries.map Prod.fst).Nodup)
    (fitting : ¬ Overlong v) : ofTokens ts = (ofJson v).mapError .data := by
  cases tells with
  | scalar valued => exact ofTokens_scalar valued
  | emptyArray => rfl
  | array items =>
    rw [ofTokens_array (items.starts _).1]
    cases items with
    | @item v ts value =>
      rw [intervalFront_of_tells value, ofJson]
      cases found : intervalOf v <;> rfl
    | @items v vs ts others first rest =>
      rw [List.append_assoc, intervalFront_of_tells first, ofJson]
      cases found : intervalOf v with
      | error e => rfl
      | ok n =>
        obtain ⟨k, rfl, natural⟩ := integer_of_interval found
        obtain ⟨item, items, rfl⟩ := rest.items_cons
        exact absurd ⟨k, item, items, rfl, natural, first.integer_lt⟩ fitting
  | emptyObject => rfl
  | @object entries written ts order told =>
    rw [ofTokens_object (told.starts _).2, members_of_tells told none (by simp),
      intervalAmong_perm order (distinct entries rfl), ofJson, ofEntries]
    cases intervalAmong none entries <;> rfl

theorem ofJson_overlong {k : Int} (natural : 0 ≤ k) (item : Json) (items : List Json) :
    ofJson (.array (.integer k :: item :: items)) = .error (.tooLong (items.length + 2)) := by
  rw [ofJson, intervalOf, if_neg (by omega)]
  rfl

theorem ofTokens_overlong {k : Int} {item : Json} {items : List Json} {ts : List Token}
    (tells : Tells (.value (.array (.integer k :: item :: items))) ts) (natural : 0 ≤ k) :
    ofTokens ts = .error .malformed := by
  cases tells with
  | scalar valued =>
    have flat := ofJson_of_scalar valued
    rw [ofJson_overlong natural] at flat
    cases flat
  | array told =>
    rw [ofTokens_array (told.starts _).1]
    cases told with
    | items first rest =>
      rw [List.append_assoc, intervalFront_of_tells first, intervalOf, if_neg (by omega)]
      rfl

/-- Settings from a text and from the value it spells agree, however the value is spelled: both
succeed with the same settings, or both fail with the same error. The text of an array that is too
long is taken for malformed, unless its first item is wrong. -/
theorem ofText_of_spelling {v : Json} {text : String} (spelled : v.SpelledBy text)
    (distinct : ∀ entries, v = .object entries → (entries.map Prod.fst).Nodup) :
    (¬ Overlong v → ofText text = (ofJson v).mapError .data) ∧
    ∀ n item items, v = .array (.integer n :: item :: items) → 0 ≤ n → n < 2 ^ 64 →
      ofJson v = .error (.tooLong (items.length + 2)) ∧ ofText text = .error .malformed := by
  have tells := spelled.tokens
  refine ⟨ofTokens_of_tells tells distinct, ?_⟩
  intro n item items array natural _
  subst array
  exact ⟨ofJson_overlong natural item items, ofTokens_overlong tells natural⟩

theorem ofText_of_escaped_key :
    let v : Json := .object [("a", .array []), (intervalKey, .integer 5)]
    let text := "\x7b\"\\u0072eport_interval\" :5,\"a\":[ ]\x7d"
    v.SpelledBy text ∧ ([("a", Json.array []), (intervalKey, .integer 5)].map Prod.fst).Nodup ∧
      ofText text = .ok ⟨5⟩ := by
  intro v text
  have escaped : Json.SpellsString intervalKey
      ('"' :: ('\\' :: 'u' :: ['0', '0', '7', '2'] ++ "eport_interval".toList ++ ['"'])) := by
    refine .quoted (.cons (.unit ?_) (.plain rfl))
    exact .digits (i := 0) (j := 0) (k := 7) (l := 2) (by decide) (by decide) (by decide)
      (by decide)
  have unknown : Json.SpellsString "a" ('"' :: (['a'] ++ ['"'])) := .quoted (.plain rfl)
  have five : Json.SpellsNumeral ⟨false, [5], [], none⟩
      ([] ++ (Json.digitsText [5] ++ ([] ++ []))) :=
    .signed ⟨by decide, by decide⟩ (by decide) .absent .absent
  have blank : Json.Blank [' '] := .cons (.inl rfl) .nil
  have valued : Json.Numeral.value? ⟨false, [5], [], none⟩ = some (.integer 5) := rfl
  have interval := Json.Spells.item .nil (.numeral five valued) .nil
  have ignored := Json.Spells.item .nil (.emptyArray blank) .nil
  have both := Json.Spells.members (.member .nil escaped blank interval)
    (.member .nil unknown .nil ignored)
  have spelled : v.SpelledBy text := by
    have whole := Json.Spells.item .nil (.object (.swap _ _ _) both) .nil
    rw [Json.SpelledBy]
    convert whole using 1
    decide
  have distinct : ([("a", Json.array []), (intervalKey, .integer 5)].map Prod.fst).Nodup := by
    decide
  refine ⟨spelled, distinct, ?_⟩
  have agreed : ofText text = (ofJson v).mapError .data := by
    refine (ofText_of_spelling spelled ?_).1 ?_
    · intro entries same
      rw [← Json.object.inj same]
      exact distinct
    · intro overlong
      obtain ⟨_, _, _, array, _⟩ := overlong
      exact Json.noConfusion array
  exact agreed.trans rfl

end Cadence.Settings
