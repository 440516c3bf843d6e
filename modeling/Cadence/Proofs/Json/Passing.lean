import Cadence.Json.Tree
import Cadence.Proofs.Json.Lexing
import Mathlib.Data.List.Induction

namespace Cadence.Json

theorem Token.ne_bracket_of_scalar? {t : Token} {v : Json} (valued : t.scalar? = some v) :
    t ≠ .openBracket ∧ t ≠ .openBrace ∧ t ≠ .closeBracket ∧ t ≠ .closeBrace := by
  cases t <;> simp_all [Token.scalar?]

/-- No phrase begins with a closing bracket. -/
theorem Tells.starts {phrase : Phrase} {ts : List Token} (tells : Tells phrase ts)
    (rest : List Token) :
    (ts ++ rest).head? ≠ some .closeBracket ∧ (ts ++ rest).head? ≠ some .closeBrace := by
  induction tells generalizing rest with
  | scalar valued =>
    obtain ⟨_, _, bracket, brace⟩ := Token.ne_bracket_of_scalar? valued
    exact ⟨by simpa using bracket, by simpa using brace⟩
  | item _ value => exact value rest
  | items _ _ first _ =>
    rw [List.append_assoc]
    exact first _
  | _ => exact ⟨by simp, by simp⟩

/-- The tokens of a phrase are passed over, with what follows them left. Fuel is spent on every item
and again on its value. -/
def Passed : Phrase → List Token → Prop
  | .value _, ts => ∀ fuel rest, 2 * ts.length ≤ fuel →
    ∃ tree, Tree.front? fuel (ts ++ rest) = some (tree, rest)
  | .items _, ts => ∀ read fuel rest, 2 * ts.length < fuel →
    ∃ tree, Tree.itemsFront? fuel read (ts ++ .closeBracket :: rest) = some (tree, rest)
  | .members _, ts => ∀ read fuel rest, 2 * ts.length < fuel →
    ∃ tree, Tree.membersFront? fuel read (ts ++ .closeBrace :: rest) = some (tree, rest)

theorem Tree.front?_scalar {t : Token} {v : Json} (valued : t.scalar? = some v) (fuel : Nat)
    (rest : List Token) : Tree.front? (fuel + 1) (t :: rest) = some (.scalar t, rest) := by
  cases t with
  | null | bool b | numeral n | string letters => rfl
  | _ => cases valued

theorem Tree.front?_array {ts : List Token} (starts : ts.head? ≠ some .closeBracket) (fuel : Nat) :
    Tree.front? (fuel + 1) (.openBracket :: ts) = Tree.itemsFront? fuel [] ts := by
  rw [Tree.front?]
  intro rest here
  rw [here] at starts
  exact starts rfl

theorem Tree.front?_object {ts : List Token} (starts : ts.head? ≠ some .closeBrace) (fuel : Nat) :
    Tree.front? (fuel + 1) (.openBrace :: ts) = Tree.membersFront? fuel [] ts := by
  rw [Tree.front?]
  intro rest here
  rw [here] at starts
  exact starts rfl

theorem Tells.passed {phrase : Phrase} {ts : List Token} (tells : Tells phrase ts) :
    Passed phrase ts := by
  induction tells with
  | scalar valued =>
    intro fuel rest enough
    cases fuel with
    | zero => cases enough
    | succ fuel => exact ⟨_, Tree.front?_scalar valued fuel rest⟩
  | emptyArray =>
    intro fuel rest enough
    cases fuel with
    | zero => cases enough
    | succ fuel => exact ⟨_, rfl⟩
  | array items passed =>
    intro fuel rest enough
    simp only [List.length_cons, List.length_append, List.length_nil] at enough
    cases fuel with
    | zero => cases enough
    | succ fuel =>
      rw [List.cons_append, List.append_assoc, Tree.front?_array (items.starts _).1]
      exact passed [] fuel rest (by omega)
  | emptyObject =>
    intro fuel rest enough
    cases fuel with
    | zero => cases enough
    | succ fuel => exact ⟨_, rfl⟩
  | object order members passed =>
    intro fuel rest enough
    simp only [List.length_cons, List.length_append, List.length_nil] at enough
    cases fuel with
    | zero => cases enough
    | succ fuel =>
      rw [List.cons_append, List.append_assoc, Tree.front?_object (members.starts _).2]
      exact passed [] fuel rest (by omega)
  | item _ value =>
    intro read fuel rest enough
    cases fuel with
    | zero => cases enough
    | succ fuel =>
      obtain ⟨tree, front⟩ := value fuel (.closeBracket :: rest) (by omega)
      rw [Tree.itemsFront?, front]
      exact ⟨_, rfl⟩
  | items _ _ first others =>
    intro read fuel rest enough
    simp only [List.length_cons, List.length_append] at enough
    cases fuel with
    | zero => cases enough
    | succ fuel =>
      obtain ⟨tree, front⟩ := first fuel (.comma :: (_ ++ .closeBracket :: rest)) (by omega)
      rw [List.append_assoc, List.cons_append, Tree.itemsFront?, front]
      exact others (tree :: read) fuel rest (by omega)
  | member means _ value =>
    intro read fuel rest enough
    simp only [List.length_cons] at enough
    cases fuel with
    | zero => cases enough
    | succ fuel =>
      obtain ⟨tree, front⟩ := value fuel (.closeBrace :: rest) (by omega)
      rw [List.cons_append, List.cons_append, Tree.membersFront?, front]
      exact ⟨_, rfl⟩
  | members means _ _ value others =>
    intro read fuel rest enough
    simp only [List.length_cons, List.length_append] at enough
    cases fuel with
    | zero => cases enough
    | succ fuel =>
      obtain ⟨tree, front⟩ := value fuel (.comma :: (_ ++ .closeBrace :: rest)) (by omega)
      rw [List.cons_append, List.cons_append, List.append_assoc, List.cons_append,
        Tree.membersFront?, front]
      exact others _ fuel rest (by omega)

theorem Numeral.readWhole_le (ds : List Nat) :
    (readWhole ds).significand ≤ greatestSignificand := by
  induction ds using List.reverseRecOn with
  | nil => decide
  | append_singleton ds d before =>
    rw [readWhole, List.foldl_append, List.foldl_cons, List.foldl_nil]
    rw [readWhole] at before
    split
    · rename_i room
      exact room.2
    · exact before

/-- An integer that is read is no greater than the greatest significand. -/
theorem Token.integer_le {t : Token} {k : Int} (valued : t.scalar? = some (.integer k)) :
    k ≤ Numeral.greatestSignificand := by
  cases t with
  | numeral n =>
    have whole := Numeral.readWhole_le n.whole
    simp only [Token.scalar?, Numeral.value?] at valued
    split at valued
    · split at valued
      · cases valued
        exact Int.ofNat_le.mpr whole
      · split at valued
        · cases valued
          omega
        · cases valued
    · obtain ⟨x, _, real⟩ := Option.map_eq_some_iff.mp valued
      cases real
  | string letters =>
    obtain ⟨cs, _, text⟩ := Option.map_eq_some_iff.mp valued
    cases text
  | _ => cases valued

theorem Numeral.value?_number {n : Numeral} {v : Json} (valued : n.value? = some v) :
    (∃ k, v = .integer k) ∨ ∃ x, v = .real x := by
  simp only [value?] at valued
  split at valued
  · split at valued
    · cases valued
      exact .inl ⟨_, rfl⟩
    · split at valued
      · cases valued
        exact .inl ⟨_, rfl⟩
      · cases valued
        exact .inr ⟨_, rfl⟩
  · obtain ⟨x, _, real⟩ := Option.map_eq_some_iff.mp valued
    exact .inr ⟨_, real.symm⟩

theorem Tells.integer_lt {k : Int} {ts : List Token} (tells : Tells (.value (.integer k)) ts) :
    k < 2 ^ 64 := by
  cases tells with
  | scalar valued =>
    have bound := Token.integer_le valued
    rw [Numeral.greatestSignificand] at bound
    omega

theorem Tells.items_cons {vs : List Json} {ts : List Token} (tells : Tells (.items vs) ts) :
    ∃ item items, vs = item :: items := by
  cases tells with
  | item _ => exact ⟨_, _, rfl⟩
  | items _ _ => exact ⟨_, _, rfl⟩

/-- A value nobody needs is passed over. -/
theorem Tells.ofTokens? {v : Json} {ts : List Token} (tells : Tells (.value v) ts)
    (rest : List Token) : ∃ tree, Tree.ofTokens? (ts ++ rest) = some (tree, rest) := by
  apply tells.passed
  rw [List.length_append]
  omega

end Cadence.Json
