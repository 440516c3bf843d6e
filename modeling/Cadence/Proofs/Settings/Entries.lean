import Cadence.Meter.Basic
import Cadence.Meter.Count
import Cadence.Session.Rig
import Cadence.Settings.Entries

namespace Cadence.Settings

def given (entries : List (String × Json)) : List Json :=
  (entries.filter fun entry => entry.1 = intervalKey).map Prod.snd

theorem given_cons (key : String) (v : Json) (entries : List (String × Json)) :
    given ((key, v) :: entries) =
      if key = intervalKey then v :: given entries else given entries := by
  rw [given, List.filter_cons]
  by_cases here : key = intervalKey
  · rw [if_pos here, if_pos (decide_eq_true here), List.map_cons, given]
  · rw [if_neg here, if_neg (by simpa using here), given]

def verdict : List Json → Except DataError Settings
  | [] => .ok standard
  | v :: later =>
    match intervalOf v with
    | .error e => .error e
    | .ok n => if later.isEmpty then .ok ⟨n⟩ else .error .repeatedInterval

theorem intervalAmong_some (n : UInt64) (entries : List (String × Json)) :
    intervalAmong (some n) entries =
      if (given entries).isEmpty then .ok (some n) else .error .repeatedInterval := by
  induction entries with
  | nil => rfl
  | cons entry entries rest =>
    obtain ⟨key, v⟩ := entry
    rw [intervalAmong, given_cons]
    split
    · rfl
    · exact rest

theorem ofEntries_eq_verdict (entries : List (String × Json)) :
    ofEntries entries = verdict (given entries) := by
  induction entries with
  | nil => rfl
  | cons entry entries rest =>
    obtain ⟨key, v⟩ := entry
    rw [ofEntries] at rest ⊢
    rw [intervalAmong, given_cons]
    split
    · rw [verdict, if_neg (by simp)]
      cases intervalOf v with
      | error e => rfl
      | ok n =>
        simp only [intervalAmong_some]
        split <;> rfl
    · exact rest

inductive Refused : Json → DataError → Prop
  | negative {n : Int} (below : n < 0) : Refused (.integer n) (.negative n)
  | wrongType {v : Json} (other : ∀ n, v ≠ .integer n) :
    Refused v (.wrongType (.ofJson v) .interval)

theorem intervalOf_natural (n : UInt64) : intervalOf (.integer n.toNat) = .ok n := by
  rw [intervalOf, if_neg (by omega), Int.toNat_natCast, UInt64.ofNat_toNat]

theorem intervalOf_refused {v : Json} {e : DataError} (refused : Refused v e) :
    intervalOf v = .error e := by
  cases refused with
  | negative below => rw [intervalOf, if_pos below]
  | wrongType other =>
    cases v with
    | integer n => exact absurd rfl (other n)
    | _ => rfl

/-- An integer of a document has 64 bits, so it is an interval or refused for its sign. -/
theorem natural_or_refused {v : Json}
    (fits : ∀ n : Int, v = .integer n → n ≤ Count.greatest.toNat) :
    (∃ n : UInt64, v = .integer n.toNat) ∨ ∃ e, Refused v e := by
  cases v with
  | integer n =>
    by_cases below : n < 0
    · exact .inr ⟨_, .negative below⟩
    · have bound := fits n rfl
      rw [Count.toNat_greatest] at bound
      have word : n.toNat < UInt64.size := by
        rw [UInt64.size]
        omega
      refine .inl ⟨UInt64.ofNat n.toNat, ?_⟩
      rw [UInt64.toNat_ofNat_of_lt' word, Int.toNat_of_nonneg (by omega)]
  | _ => exact .inr ⟨_, .wrongType fun _ same => by cases same⟩

theorem verdict_refused {v : Json} {e : DataError} (refused : Refused v e) (later : List Json) :
    verdict (v :: later) = .error e := by
  rw [verdict, intervalOf_refused refused]

theorem verdict_single (n : UInt64) : verdict [.integer n.toNat] = .ok ⟨n⟩ := by
  rw [verdict, intervalOf_natural]
  rfl

theorem verdict_repeated (n : UInt64) (v : Json) (later : List Json) :
    verdict (.integer n.toNat :: v :: later) = .error .repeatedInterval := by
  rw [verdict, intervalOf_natural]
  rfl

section

variable {values : List Json} (fits : ∀ n : Int, .integer n ∈ values → n ≤ Count.greatest.toNat)

include fits

theorem verdict_cases :
    (values = [] ∧ verdict values = .ok standard) ∨
    (∃ n : UInt64, values = [.integer n.toNat] ∧ verdict values = .ok ⟨n⟩) ∨
    (∃ (n : UInt64) (v : Json) (later : List Json), values = .integer n.toNat :: v :: later ∧
      verdict values = .error .repeatedInterval) ∨
    (∃ v later e, values = v :: later ∧ Refused v e ∧ verdict values = .error e) := by
  cases values with
  | nil => exact .inl ⟨rfl, rfl⟩
  | cons v later =>
    rcases natural_or_refused fun n same => fits n (same ▸ List.mem_cons_self) with
      ⟨n, rfl⟩ | ⟨e, refused⟩
    · cases later with
      | nil => exact .inr (.inl ⟨n, rfl, verdict_single n⟩)
      | cons v later => exact .inr (.inr (.inl ⟨n, v, later, rfl, verdict_repeated n v later⟩))
    · exact .inr (.inr (.inr ⟨v, later, e, rfl, refused, verdict_refused refused later⟩))

theorem verdict_eq_ok_iff (c : Settings) : verdict values = .ok c ↔
    values = [] ∧ c = standard ∨ values = [.integer c.interval.toNat] := by
  constructor
  · intro accepted
    rcases verdict_cases fits with ⟨none, found⟩ | ⟨n, single, found⟩ | ⟨n, v, later, _, found⟩ |
      ⟨v, later, e, _, _, found⟩
    · rw [found] at accepted
      cases accepted
      exact .inl ⟨none, rfl⟩
    · rw [found] at accepted
      cases accepted
      exact .inr single
    · rw [found] at accepted
      cases accepted
    · rw [found] at accepted
      cases accepted
  · rintro (⟨rfl, rfl⟩ | rfl)
    · rfl
    · exact verdict_single c.interval

theorem verdict_eq_error_iff (e : DataError) : verdict values = .error e ↔
    ∃ v later, values = v :: later ∧ (Refused v e ∨
      (∃ n : UInt64, v = .integer n.toNat) ∧ later ≠ [] ∧ e = .repeatedInterval) := by
  constructor
  · intro failed
    rcases verdict_cases fits with ⟨_, found⟩ | ⟨n, _, found⟩ | ⟨n, v, later, several, found⟩ |
      ⟨v, later, _, some, refused, found⟩
    · rw [found] at failed
      cases failed
    · rw [found] at failed
      cases failed
    · rw [found] at failed
      cases failed
      exact ⟨_, _, several, .inr ⟨⟨n, rfl⟩, List.cons_ne_nil _ _, rfl⟩⟩
    · rw [found] at failed
      cases failed
      exact ⟨v, later, some, .inl refused⟩
  · rintro ⟨v, later, rfl, refused | ⟨⟨n, rfl⟩, more, rfl⟩⟩
    · exact verdict_refused refused later
    · obtain ⟨v, later, rfl⟩ := List.exists_cons_of_ne_nil more
      exact verdict_repeated n v later

end

/-- Settings from entries depend on nothing but the values under the key of the interval. They are
the standard ones if there is none, and those with the interval given if there is one and it is a
natural number of 64 bits; that may be zero, which is only refused when the settings are used. Else
the first value is refused for its sign or type, or another one comes after it, whatever it is. -/
theorem ofEntries_iff {σ κ δ : Type} [Surroundings σ κ δ] (entries : List (String × Json)) :
    (∀ others, given others = given entries → ofEntries others = ofEntries entries) ∧
    ((∀ n : Int, .integer n ∈ given entries → n ≤ Count.greatest.toNat) →
      (∀ c, ofEntries entries = .ok c ↔
        given entries = [] ∧ c = standard ∨ given entries = [.integer c.interval.toNat]) ∧
      (∀ e, ofEntries entries = .error e ↔ ∃ v later, given entries = v :: later ∧
        (Refused v e ∨
          (∃ n : UInt64, v = .integer n.toNat) ∧ later ≠ [] ∧ e = .repeatedInterval))) ∧
    (∀ (c : Settings) (destination : Option δ) (clock : κ) (s : σ),
      (c.validate = .error .zeroInterval ↔ c.interval = 0) ∧
      (Meter.begin? c.interval destination clock s = .error .zeroInterval ↔ c.interval = 0)) := by
  refine ⟨?_, ?_, ?_⟩
  · intro others same
    rw [ofEntries_eq_verdict, ofEntries_eq_verdict, same]
  · intro fits
    rw [ofEntries_eq_verdict]
    exact ⟨verdict_eq_ok_iff fits, verdict_eq_error_iff fits⟩
  · intro c destination clock s
    rw [validate, Meter.begin?, Interval.ofRecords]
    by_cases zero : c.interval = 0 <;> simp [zero]

theorem ofEntries_iff_of_zero :
    let zero : Json := .integer 0
    let entries : List (String × Json) :=
      [("Report_interval", .integer 7), (intervalKey, zero), ("a", .null)]
    let twice : List (String × Json) :=
      [(intervalKey, zero), ("b", .array []), (intervalKey, .null)]
    (∀ n : Int, .integer n ∈ given entries → n ≤ Count.greatest.toNat) ∧
      (∀ n : Int, .integer n ∈ given twice → n ≤ Count.greatest.toNat) ∧
      given [(intervalKey, zero)] = given entries ∧
      ofEntries [(intervalKey, zero)] = ofEntries entries ∧ ofEntries entries = .ok ⟨0⟩ ∧
      ofEntries twice = .error .repeatedInterval ∧
      (⟨0⟩ : Settings).validate = .error .zeroInterval := by
  intro zero entries twice
  have single : given entries = [zero] := rfl
  have double : given twice = [zero, .null] := rfl
  have fits : ∀ n : Int, .integer n ∈ given entries → n ≤ Count.greatest.toNat := by
    intro n member
    rw [single, List.mem_singleton] at member
    rw [Json.integer.inj member]
    decide
  have fits' : ∀ n : Int, .integer n ∈ given twice → n ≤ Count.greatest.toNat := by
    intro n member
    simp only [double, List.mem_cons, List.not_mem_nil, or_false, reduceCtorEq] at member
    rw [Json.integer.inj member]
    decide
  have lone := @ofEntries_iff Session.Rig Session.ClockHandle Nat _ entries
  have other := @ofEntries_iff Session.Rig Session.ClockHandle Nat _ twice
  refine ⟨fits, fits', rfl, lone.1 _ rfl, ((lone.2.1 fits).1 _).mpr (.inr rfl), ?_, ?_⟩
  · refine ((other.2.1 fits').2 _).mpr ⟨zero, [.null], rfl, .inr ⟨⟨0, rfl⟩, ?_, rfl⟩⟩
    exact List.cons_ne_nil _ _
  · exact (lone.2.2 ⟨0⟩ none .process .empty).1.mpr rfl

end Cadence.Settings
