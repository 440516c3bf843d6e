import Cadence.Json.Token
import Cadence.Proofs.Decimal.Numerals
import Cadence.Proofs.Json.Spelling
import Mathlib.Tactic.IntervalCases

namespace Cadence.Json

theorem hexDigit?_of_mem :
    ∀ entry ∈ hexDigits, hexDigit? entry.1 = some entry.2 ∧ entry.2 < 16 := by
  decide

theorem escaped?_of_mem :
    ∀ entry ∈ shortEscapes, escaped? entry.1 = some entry.2 ∧ entry.1 ≠ 'u' := by
  decide

theorem SpellsUnit.unit? {n : Nat} {text : List Char} (spelled : SpellsUnit n text) :
    ∃ a b c d, text = [a, b, c, d] ∧ unit? a b c d = some n ∧ n < 0x10000 := by
  obtain ⟨first, second, third, fourth⟩ := spelled
  obtain ⟨one, _⟩ := hexDigit?_of_mem _ first
  obtain ⟨two, _⟩ := hexDigit?_of_mem _ second
  obtain ⟨three, _⟩ := hexDigit?_of_mem _ third
  obtain ⟨four, _⟩ := hexDigit?_of_mem _ fourth
  simp only at *
  refine ⟨_, _, _, _, rfl, ?_, by omega⟩
  simp only [Json.unit?, one, two, three, four]
  rfl

/-- A unit that is a character by itself stays one whatever comes after it. -/
theorem Letter.text?_unit {c : Char} (narrow : c.toNat < 0x10000) (more : List Letter) :
    Letter.text? (.unit c.toNat :: more) = (Letter.text? more).map (c :: ·) := by
  have valid : c.toNat < 0xD800 ∨ 0xDFFF < c.toNat := by
    rcases c.valid with low | high
    · exact .inl low
    · exact .inr high.1
  have high : ¬ (0xD800 ≤ c.toNat ∧ c.toNat < 0xDC00) := by omega
  have low : ¬ (0xDC00 ≤ c.toNat ∧ c.toNat < 0xE000) := by omega
  have either : ¬ (0xD800 ≤ c.toNat ∧ c.toNat < 0xE000) := by omega
  cases more with
  | nil => simp [Letter.text?, either]
  | cons letter more =>
    cases letter with
    | char d => simp [Letter.text?, either]
    | unit n => simp [Letter.text?, high, low]

theorem Letter.text?_pair {c : Char} {high low : Nat} (leading : 0xD800 ≤ high ∧ high < 0xDC00)
    (trailing : 0xDC00 ≤ low ∧ low < 0xE000)
    (code : c.toNat = 0x10000 + (high - 0xD800) * 0x400 + (low - 0xDC00)) (more : List Letter) :
    Letter.text? (.unit high :: .unit low :: more) = (Letter.text? more).map (c :: ·) := by
  rw [Letter.text?, if_pos leading, if_pos trailing, ← code]
  simp only [Char.ofNat_toNat]

theorem stringBody_unit {n : Nat} {text : List Char} (spelled : SpellsUnit n text)
    (read : List Letter) (rest : List Char) :
    stringBody read ('\\' :: 'u' :: (text ++ rest)) = stringBody (.unit n :: read) rest := by
  obtain ⟨a, b, c, d, rfl, unit, _⟩ := spelled.unit?
  simp only [List.cons_append, List.nil_append]
  rw [stringBody, unit]

/-- A character however it is spelled: letters that stand for it are read. -/
theorem SpellsChar.stringBody {c : Char} {text : List Char} (spelled : SpellsChar c text) :
    ∃ letters, (∀ more, Letter.text? (letters ++ more) = (Letter.text? more).map (c :: ·)) ∧
      ∀ read rest, stringBody read (text ++ rest) =
        stringBody (letters.reverse ++ read) rest := by
  cases spelled with
  | plain printable quote backslash =>
    refine ⟨[.char c], fun more => by simp [Letter.text?], ?_⟩
    intro read rest
    have visible : ¬ c.toNat < 0x20 := by omega
    rw [List.singleton_append, Json.stringBody, if_neg visible]
    · rfl
    · exact quote
    · exact fun _ _ _ _ _ here _ => backslash here
    · exact fun _ _ here _ => backslash here
  | short escape =>
    obtain ⟨escaped, other⟩ := escaped?_of_mem _ escape
    refine ⟨[.char c], fun more => by simp [Letter.text?], ?_⟩
    intro read rest
    rw [List.cons_append, List.singleton_append, Json.stringBody, escaped]
    · rfl
    · exact fun _ _ _ _ _ here _ => other here
  | unit unit =>
    refine ⟨[.unit c.toNat], ?_, ?_⟩
    · obtain ⟨_, _, _, _, _, _, narrow⟩ := unit.unit?
      exact Letter.text?_unit narrow
    · exact stringBody_unit unit
  | pair first second leading trailing code =>
    refine ⟨[.unit _, .unit _], Letter.text?_pair leading trailing code, ?_⟩
    intro read rest
    simp only [List.cons_append, List.append_assoc]
    rw [stringBody_unit first, stringBody_unit second]
    rfl

theorem SpellsChars.stringBody {cs text : List Char} (spelled : SpellsChars cs text) :
    ∃ letters, Letter.text? letters = some cs ∧
      ∀ read rest,
        stringBody read (text ++ '"' :: rest) = some (read.reverse ++ letters, rest) := by
  induction spelled with
  | nil =>
    refine ⟨[], rfl, ?_⟩
    intro read rest
    rw [List.nil_append, Json.stringBody, List.append_nil]
  | cons first _ more =>
    obtain ⟨letters, means, reads⟩ := first.stringBody
    obtain ⟨others, meaning, reading⟩ := more
    refine ⟨letters ++ others, ?_, ?_⟩
    · rw [means, meaning]
      rfl
    · intro read rest
      rw [List.append_assoc, reads, reading, List.reverse_append, List.reverse_reverse,
        List.append_assoc]

def Stops (rest : List Char) : Prop :=
  ∀ c ∈ rest.head?, Decimal.digit? c = none ∧ c ≠ '.' ∧ c ≠ 'e' ∧ c ≠ 'E'

theorem digitsFront_digitsText {ds : List Nat} (digits : ∀ d ∈ ds, d < 10) {rest : List Char}
    (stops : ∀ c ∈ rest.head?, Decimal.digit? c = none) :
    digitsFront (digitsText ds ++ rest) = (ds, rest) := by
  induction ds with
  | nil =>
    cases rest with
    | nil => rfl
    | cons c rest => simp [digitsFront, digitsText, stops c rfl]
  | cons d ds more =>
    have here := Decimal.digit?_digitChar d (digits d List.mem_cons_self)
    have later := more fun e member => digits e (List.mem_cons_of_mem d member)
    obtain ⟨front, back⟩ := Prod.mk.inj later
    have digit : (Decimal.digit? (Decimal.digitChar d)).isSome = true := by rw [here]; rfl
    rw [digitsText, List.map_cons, List.cons_append, digitsFront,
      List.takeWhile_cons_of_pos (p := fun c => (Decimal.digit? c).isSome) digit,
      List.dropWhile_cons_of_pos (p := fun c => (Decimal.digit? c).isSome) digit,
      List.filterMap_cons_some here]
    exact Prod.ext (congrArg (d :: ·) front) back

theorem SpellsFraction.front {ds : List Nat} {text : List Char} (spelled : SpellsFraction ds text)
    {rest : List Char} (stops : ∀ c ∈ rest.head?, Decimal.digit? c = none ∧ c ≠ '.') :
    fractionFront? (text ++ rest) = some (ds, rest) := by
  cases spelled with
  | absent =>
    cases rest with
    | nil => rfl
    | cons c rest =>
      obtain ⟨_, other⟩ := stops c rfl
      rw [List.nil_append, fractionFront?]
      intro more here
      exact other (List.head_eq_of_cons_eq here)
  | point digits =>
    obtain ⟨some, digits⟩ := digits
    have front := digitsFront_digitsText digits fun c here => (stops c here).1
    obtain ⟨d, ds, rfl⟩ := List.exists_cons_of_ne_nil some
    rw [List.cons_append, fractionFront?, front]

theorem exponentDigits?_digitsText (negative : Bool) {ds : List Nat} (digits : AreDigits ds)
    {rest : List Char} (stops : Stops rest) :
    exponentDigits? negative (digitsText ds ++ rest) = some (some (negative, ds), rest) := by
  obtain ⟨some, digits⟩ := digits
  have front := digitsFront_digitsText digits fun c here => (stops c here).1
  obtain ⟨d, ds, rfl⟩ := List.exists_cons_of_ne_nil some
  rw [exponentDigits?, front]

theorem AreDigits.signless {ds : List Nat} (digits : AreDigits ds) {c : Char}
    {rest more : List Char} (front : digitsText ds ++ rest = c :: more) :
    Decimal.digit? c ≠ none := by
  obtain ⟨some, digits⟩ := digits
  obtain ⟨d, ds, rfl⟩ := List.exists_cons_of_ne_nil some
  have here := Decimal.digit?_digitChar d (digits d List.mem_cons_self)
  rw [← List.head_eq_of_cons_eq front, here]
  exact Option.some_ne_none d

theorem SpellsExponent.front {power : Option (Bool × List Nat)} {text : List Char}
    (spelled : SpellsExponent power text) {rest : List Char} (stops : Stops rest) :
    exponentFront? (text ++ rest) = some (power, rest) := by
  cases spelled with
  | absent =>
    cases rest with
    | nil => rfl
    | cons c rest =>
      obtain ⟨_, _, lower, upper⟩ := stops c rfl
      simp [exponentFront?, lower, upper]
  | @marked mark negative ds text mark_eq sign digits =>
    cases sign with
    | plus =>
      simp only [List.cons_append, List.nil_append, exponentFront?, if_pos mark_eq]
      exact exponentDigits?_digitsText false digits stops
    | minus =>
      simp only [List.cons_append, List.nil_append, exponentFront?, if_pos mark_eq]
      exact exponentDigits?_digitsText true digits stops
    | absent =>
      rw [List.nil_append, List.cons_append, exponentFront?, if_pos mark_eq]
      · exact exponentDigits?_digitsText false digits stops
      · exact fun _ front => digits.signless front rfl
      · exact fun _ front => digits.signless front rfl

theorem SpellsExponent.stops {power : Option (Bool × List Nat)} {text : List Char}
    (spelled : SpellsExponent power text) {rest : List Char} (stops : Stops rest) :
    ∀ c ∈ (text ++ rest).head?, Decimal.digit? c = none ∧ c ≠ '.' := by
  cases spelled with
  | absent => exact fun c here => ⟨(stops c here).1, (stops c here).2.1⟩
  | marked mark_eq sign digits =>
    intro c here
    cases here
    rcases mark_eq with rfl | rfl <;> decide

theorem SpellsFraction.stops {ds : List Nat} {text : List Char} (spelled : SpellsFraction ds text)
    {rest : List Char} (stops : ∀ c ∈ rest.head?, Decimal.digit? c = none ∧ c ≠ '.') :
    ∀ c ∈ (text ++ rest).head?, Decimal.digit? c = none := by
  cases spelled with
  | absent => exact fun c here => (stops c here).1
  | point digits =>
    intro c here
    cases here
    decide

/-- The digits of a number are read back, whatever stops them. -/
theorem SpellsNumeral.front {n : Numeral} {text : List Char} (spelled : SpellsNumeral n text) :
    ∃ d cs, text = (if n.negative then ['-'] else []) ++ Decimal.digitChar d :: cs ∧ d < 10 ∧
      ∀ rest, Stops rest →
        numeralFront? n.negative (Decimal.digitChar d :: cs ++ rest) = some (n, rest) := by
  obtain ⟨digits, leading, decimals, power⟩ := spelled
  rename_i negative whole fraction exponent text texts
  obtain ⟨some, below⟩ := digits
  obtain ⟨d, ds, rfl⟩ := List.exists_cons_of_ne_nil some
  refine ⟨d, digitsText ds ++ (text ++ texts), rfl, below d List.mem_cons_self, ?_⟩
  · intro rest stops
    have tail := decimals.stops (power.stops stops)
    have front := digitsFront_digitsText below tail
    have parts : Decimal.digitChar d :: (digitsText ds ++ (text ++ texts)) ++ rest =
        digitsText (d :: ds) ++ (text ++ (texts ++ rest)) := by
      simp [digitsText]
    have after := decimals.front (power.stops stops)
    have last := power.front stops
    rw [parts, numeralFront?, front]
    cases ds with
    | nil =>
      simp only [after, last, Option.bind_eq_bind, Option.bind_some]
      rfl
    | cons e ds =>
      cases d with
      | zero => cases leading rfl
      | succ d =>
        simp only [after, last, Option.bind_eq_bind, Option.bind_some]
        rfl

theorem tokenFront?_digitChar (cs : List Char) : ∀ d < 10,
    tokenFront? (Decimal.digitChar d) cs =
      (numeralFront? false (Decimal.digitChar d :: cs)).map
        fun (n, rest) => (.numeral n, rest) := by
  intro d small
  interval_cases d <;> rfl

def Reads (cs rest : List Char) (ts : List Token) : Prop :=
  ∀ read fuel, (cs ++ rest).length ≤ fuel → ∃ left, rest.length ≤ left ∧
    tokensFrom read fuel (cs ++ rest) = tokensFrom (ts.reverse ++ read) left rest

namespace Reads

variable {cs more rest : List Char} {ts others : List Token}

theorem nil (rest : List Char) : Reads [] rest [] :=
  fun _ fuel enough => ⟨fuel, enough, rfl⟩

theorem append (first : Reads cs (more ++ rest) ts) (second : Reads more rest others) :
    Reads (cs ++ more) rest (ts ++ others) := by
  intro read fuel enough
  rw [List.append_assoc] at enough ⊢
  obtain ⟨left, kept, same⟩ := first read fuel enough
  obtain ⟨last, still, after⟩ := second (ts.reverse ++ read) left kept
  refine ⟨last, still, ?_⟩
  rw [same, after, List.reverse_append, List.append_assoc]

theorem blank {blanks : List Char} (blank : Blank blanks) (rest : List Char) :
    Reads blanks rest [] := by
  induction blank with
  | nil => exact nil rest
  | @cons c cs first _ more =>
    have skipped : isBlank c = true := by
      rcases first with rfl | rfl | rfl | rfl <;> rfl
    intro read fuel enough
    cases fuel with
    | zero => cases enough
    | succ fuel =>
      obtain ⟨left, kept, same⟩ := more read fuel (Nat.le_of_succ_le_succ enough)
      refine ⟨left, kept, ?_⟩
      rw [List.cons_append, tokensFrom, if_pos skipped, same]

theorem token {c : Char} {t : Token} (visible : isBlank c = false)
    (front : tokenFront? c (cs ++ rest) = some (t, rest)) : Reads (c :: cs) rest [t] := by
  intro read fuel enough
  cases fuel with
  | zero => cases enough
  | succ fuel =>
    refine ⟨fuel, ?_, ?_⟩
    · have room : (cs ++ rest).length ≤ fuel := Nat.le_of_succ_le_succ enough
      rw [List.length_append] at room
      omega
    · rw [List.cons_append, tokensFrom, if_neg (by simp [visible]), front]
      rfl

theorem enclosed {c d : Char} {t u : Token} (visible : isBlank c = false ∧ isBlank d = false)
    (opens : ∀ cs, tokenFront? c cs = some (t, cs)) (closes : ∀ cs, tokenFront? d cs = some (u, cs))
    (inside : Reads cs (d :: rest) ts) :
    Reads (c :: (cs ++ [d])) rest (t :: (ts ++ [u])) := by
  have opened : Reads [c] (cs ++ [d] ++ rest) [t] := token visible.1 (opens _)
  have closed : Reads [d] rest [u] := token visible.2 (closes rest)
  exact opened.append (Reads.append inside closed)

theorem separated {c : Char} {t : Token} (visible : isBlank c = false)
    (separates : ∀ cs, tokenFront? c cs = some (t, cs)) (first : Reads cs (c :: (more ++ rest)) ts)
    (second : Reads more rest others) : Reads (cs ++ c :: more) rest (ts ++ t :: others) := by
  have mark : Reads [c] (more ++ rest) [t] := token visible (separates _)
  have both : Reads (c :: more) rest (t :: others) := mark.append second
  exact Reads.append first both

theorem tokens (reads : Reads cs [] ts) : tokensFrom [] cs.length cs = ts := by
  obtain ⟨left, _, same⟩ := reads [] cs.length (by simp)
  have ended : tokensFrom ts.reverse left [] = ts := by
    cases left <;> simp [tokensFrom]
  rw [List.append_nil, List.append_nil] at same
  rw [same, ended]

theorem string {s : String} {text : List Char} (spelled : SpellsString s text) :
    ∃ letters, Letter.text? letters = some s.toList ∧
      ∀ rest, Reads text rest [.string letters] := by
  obtain ⟨chars⟩ := spelled
  obtain ⟨letters, means, body⟩ := chars.stringBody
  refine ⟨letters, means, fun rest => token rfl ?_⟩
  rw [List.append_assoc, List.singleton_append]
  simp only [tokenFront?, body]
  rfl

theorem numeral {n : Numeral} {text : List Char} (spelled : SpellsNumeral n text)
    (stops : Stops rest) : Reads text rest [.numeral n] := by
  obtain ⟨d, cs, rfl, small, front⟩ := spelled.front
  have read := front rest stops
  cases sign : n.negative with
  | true =>
    rw [sign] at read
    refine token rfl ?_
    change ((numeralFront? true (Decimal.digitChar d :: cs ++ rest)).map
      fun (n, rest) => (Token.numeral n, rest)) = some (.numeral n, rest)
    rw [read]
    rfl
  | false =>
    rw [sign] at read
    refine token ?_ ?_
    · interval_cases d <;> rfl
    · rw [tokenFront?_digitChar _ d small]
      rw [List.cons_append] at read
      rw [read]
      rfl

end Reads

inductive Tells : Phrase → List Token → Prop
  | scalar {t : Token} {v : Json} (valued : t.scalar? = some v) : Tells (.value v) [t]
  | emptyArray : Tells (.value (.array [])) [.openBracket, .closeBracket]
  | array {vs : List Json} {ts : List Token} (items : Tells (.items vs) ts) :
    Tells (.value (.array vs)) (.openBracket :: (ts ++ [.closeBracket]))
  | emptyObject : Tells (.value (.object [])) [.openBrace, .closeBrace]
  | object {entries written : List (String × Json)} {ts : List Token}
    (order : written.Perm entries) (members : Tells (.members written) ts) :
    Tells (.value (.object entries)) (.openBrace :: (ts ++ [.closeBrace]))
  | item {v : Json} {ts : List Token} (value : Tells (.value v) ts) : Tells (.items [v]) ts
  | items {v : Json} {vs : List Json} {ts others : List Token} (first : Tells (.value v) ts)
    (rest : Tells (.items vs) others) : Tells (.items (v :: vs)) (ts ++ .comma :: others)
  | member {key : String} {v : Json} {letters : List Letter} {ts : List Token}
    (means : Letter.text? letters = some key.toList) (value : Tells (.value v) ts) :
    Tells (.members [(key, v)]) (.string letters :: .colon :: ts)
  | members {key : String} {v : Json} {entries : List (String × Json)} {letters : List Letter}
    {ts others : List Token} (means : Letter.text? letters = some key.toList)
    (value : Tells (.value v) ts) (rest : Tells (.members entries) others) :
    Tells (.members ((key, v) :: entries)) (.string letters :: .colon :: (ts ++ .comma :: others))

theorem Tells.single {v : Json} {ts : List Token} (tells : Tells (.items [v]) ts) :
    Tells (.value v) ts := by
  cases tells with
  | item value => exact value
  | items first rest => cases rest

theorem Tells.more {entry : String × Json} {entries : List (String × Json)}
    {ts others : List Token} (first : Tells (.members [entry]) ts)
    (rest : Tells (.members entries) others) :
    Tells (.members (entry :: entries)) (ts ++ .comma :: others) := by
  cases first with
  | member means value => exact .members means value rest
  | members means value none => cases none

theorem stops_cons {c : Char} (other : Decimal.digit? c = none ∧ c ≠ '.' ∧ c ≠ 'e' ∧ c ≠ 'E')
    (rest : List Char) : Stops (c :: rest) := by
  intro d here
  cases here
  exact other

theorem Blank.stops {blank : List Char} (blanks : Blank blank) {rest : List Char}
    (stops : Stops rest) : Stops (blank ++ rest) := by
  cases blanks with
  | nil => exact stops
  | cons first _ =>
    intro c here
    cases here
    rcases first with rfl | rfl | rfl | rfl <;> decide

/-- However a phrase is spelled, its tokens are read, if no number at its end goes on in what
follows. -/
theorem Spells.reads {phrase : Phrase} {text : List Char} (spells : Spells phrase text) :
    ∃ ts, Tells phrase ts ∧ ∀ rest, Stops rest → Reads text rest ts := by
  induction spells with
  | null => exact ⟨[.null], .scalar rfl, fun rest _ => .token rfl rfl⟩
  | true => exact ⟨[.bool .true], .scalar rfl, fun rest _ => .token rfl rfl⟩
  | false => exact ⟨[.bool .false], .scalar rfl, fun rest _ => .token rfl rfl⟩
  | @numeral n v text spelled valued =>
    exact ⟨[.numeral n], .scalar valued, fun rest stops => .numeral spelled stops⟩
  | @string s text spelled =>
    obtain ⟨letters, means, read⟩ := Reads.string spelled
    refine ⟨[.string letters], .scalar ?_, fun rest _ => read rest⟩
    rw [Token.scalar?, means, Option.map_some, String.ofList_toList]
  | emptyArray inside =>
    refine ⟨_, .emptyArray, fun rest _ => ?_⟩
    exact .enclosed ⟨rfl, rfl⟩ (fun _ => rfl) (fun _ => rfl) (.blank inside _)
  | array _ items =>
    obtain ⟨ts, tells, read⟩ := items
    refine ⟨_, .array tells, fun rest _ => ?_⟩
    exact .enclosed ⟨rfl, rfl⟩ (fun _ => rfl) (fun _ => rfl) (read _ (stops_cons (by decide) rest))
  | emptyObject inside =>
    refine ⟨_, .emptyObject, fun rest _ => ?_⟩
    exact .enclosed ⟨rfl, rfl⟩ (fun _ => rfl) (fun _ => rfl) (.blank inside _)
  | object order _ members =>
    obtain ⟨ts, tells, read⟩ := members
    refine ⟨_, .object order tells, fun rest _ => ?_⟩
    exact .enclosed ⟨rfl, rfl⟩ (fun _ => rfl) (fun _ => rfl) (read _ (stops_cons (by decide) rest))
  | item blank _ blank' value =>
    obtain ⟨ts, tells, read⟩ := value
    refine ⟨ts, .item tells, fun rest stops => ?_⟩
    have both := Reads.append (read _ (blank'.stops stops)) (.blank blank' rest)
    rw [List.append_nil] at both
    exact Reads.append (.blank blank _) both
  | items _ _ first rest =>
    obtain ⟨ts, tells, read⟩ := first
    obtain ⟨others, telling, reading⟩ := rest
    refine ⟨_, .items tells.single telling, fun rest stops => ?_⟩
    exact .separated rfl (fun _ => rfl) (read _ (stops_cons (by decide) _)) (reading rest stops)
  | @member key v before name after text blank named blank' _ value =>
    obtain ⟨letters, means, named⟩ := Reads.string named
    obtain ⟨ts, tells, read⟩ := value
    refine ⟨_, .member means tells.single, fun rest stops => ?_⟩
    have valued : Reads (after ++ ':' :: text) rest ([] ++ .colon :: ts) :=
      .separated rfl (fun _ => rfl) (.blank blank' _) (read rest stops)
    exact Reads.append (.blank blank _) (Reads.append (named _) valued)
  | members _ _ first rest =>
    obtain ⟨ts, tells, read⟩ := first
    obtain ⟨others, telling, reading⟩ := rest
    refine ⟨_, tells.more telling, fun rest stops => ?_⟩
    exact .separated rfl (fun _ => rfl) (read _ (stops_cons (by decide) _)) (reading rest stops)

/-- The tokens of a document, with nothing after them. -/
theorem SpelledBy.tokens {v : Json} {text : String} (spelled : v.SpelledBy text) :
    Tells (.value v) (tokens text) := by
  obtain ⟨ts, tells, read⟩ := Spells.reads spelled
  have ended : Stops [] := by
    intro c here
    cases here
  have same : Json.tokens text = ts := (read [] ended).tokens
  rw [same]
  exact tells.single

end Cadence.Json
