import Cadence.Json.Numeral

namespace Cadence.Json

def hexDigits : List (Char × Nat) :=
  [('0', 0), ('1', 1), ('2', 2), ('3', 3), ('4', 4), ('5', 5), ('6', 6), ('7', 7), ('8', 8),
    ('9', 9), ('a', 10), ('b', 11), ('c', 12), ('d', 13), ('e', 14), ('f', 15), ('A', 10),
    ('B', 11), ('C', 12), ('D', 13), ('E', 14), ('F', 15)]

def shortEscapes : List (Char × Char) :=
  [('"', '"'), ('\\', '\\'), ('/', '/'), ('b', '\x08'), ('f', '\x0c'), ('n', '\n'), ('r', '\r'),
    ('t', '\t')]

inductive SpellsUnit : Nat → List Char → Prop
  | digits {a b c d : Char} {i j k l : Nat} (first : (a, i) ∈ hexDigits)
    (second : (b, j) ∈ hexDigits) (third : (c, k) ∈ hexDigits) (fourth : (d, l) ∈ hexDigits) :
    SpellsUnit (((i * 16 + j) * 16 + k) * 16 + l) [a, b, c, d]

inductive SpellsChar : Char → List Char → Prop
  | plain {c : Char} (printable : 0x20 ≤ c.toNat) (quote : c ≠ '"') (backslash : c ≠ '\\') :
    SpellsChar c [c]
  | short {c e : Char} (escape : (e, c) ∈ shortEscapes) : SpellsChar c ['\\', e]
  | unit {c : Char} {cs : List Char} (unit : SpellsUnit c.toNat cs) :
    SpellsChar c ('\\' :: 'u' :: cs)
  | pair {c : Char} {high low : Nat} {cs ds : List Char} (first : SpellsUnit high cs)
    (second : SpellsUnit low ds) (leading : 0xD800 ≤ high ∧ high < 0xDC00)
    (trailing : 0xDC00 ≤ low ∧ low < 0xE000)
    (code : c.toNat = 0x10000 + (high - 0xD800) * 0x400 + (low - 0xDC00)) :
    SpellsChar c ('\\' :: 'u' :: (cs ++ '\\' :: 'u' :: ds))

inductive SpellsChars : List Char → List Char → Prop
  | nil : SpellsChars [] []
  | cons {c : Char} {cs text texts : List Char} (first : SpellsChar c text)
    (rest : SpellsChars cs texts) : SpellsChars (c :: cs) (text ++ texts)

theorem SpellsChars.plain {cs : List Char}
    (plain : cs.all (fun c => 0x20 ≤ c.toNat && c != '"' && c != '\\') = true) :
    SpellsChars cs cs := by
  induction cs with
  | nil => exact .nil
  | cons c cs rest =>
    simp only [List.all_cons, Bool.and_eq_true, decide_eq_true_eq, bne_iff_ne] at plain
    obtain ⟨⟨⟨printable, quote⟩, backslash⟩, others⟩ := plain
    exact .cons (.plain printable quote backslash) (rest others)

inductive SpellsString : String → List Char → Prop
  | quoted {s : String} {text : List Char} (chars : SpellsChars s.toList text) :
    SpellsString s ('"' :: (text ++ ['"']))

def digitsText (ds : List Nat) : List Char := ds.map Decimal.digitChar

def AreDigits (ds : List Nat) : Prop := ds ≠ [] ∧ ∀ d ∈ ds, d < 10

inductive SpellsFraction : List Nat → List Char → Prop
  | absent : SpellsFraction [] []
  | point {ds : List Nat} (digits : AreDigits ds) : SpellsFraction ds ('.' :: digitsText ds)

inductive SpellsSign : Bool → List Char → Prop
  | absent : SpellsSign false []
  | plus : SpellsSign false ['+']
  | minus : SpellsSign true ['-']

inductive SpellsExponent : Option (Bool × List Nat) → List Char → Prop
  | absent : SpellsExponent none []
  | marked {mark : Char} {negative : Bool} {ds : List Nat} {text : List Char}
    (mark_eq : mark = 'e' ∨ mark = 'E') (sign : SpellsSign negative text) (digits : AreDigits ds) :
    SpellsExponent (some (negative, ds)) (mark :: (text ++ digitsText ds))

inductive SpellsNumeral : Numeral → List Char → Prop
  | signed {negative : Bool} {whole fraction : List Nat} {exponent : Option (Bool × List Nat)}
    {text texts : List Char} (digits : AreDigits whole)
    (leading : whole.head? = some 0 → whole = [0]) (decimals : SpellsFraction fraction text)
    (power : SpellsExponent exponent texts) :
    SpellsNumeral ⟨negative, whole, fraction, exponent⟩
      ((if negative then ['-'] else []) ++ (digitsText whole ++ (text ++ texts)))

inductive Blank : List Char → Prop
  | nil : Blank []
  | cons {c : Char} {cs : List Char} (first : c = ' ' ∨ c = '\n' ∨ c = '\t' ∨ c = '\r')
    (rest : Blank cs) : Blank (c :: cs)

/-- What a stretch of a document holds: one value, or items or members with commas between them. -/
inductive Phrase
  | value (v : Json)
  | items (vs : List Json)
  | members (entries : List (String × Json))

inductive Spells : Phrase → List Char → Prop
  | null : Spells (.value .null) ['n', 'u', 'l', 'l']
  | true : Spells (.value (.bool true)) ['t', 'r', 'u', 'e']
  | false : Spells (.value (.bool false)) ['f', 'a', 'l', 's', 'e']
  | numeral {n : Numeral} {v : Json} {text : List Char} (spelled : SpellsNumeral n text)
    (valued : n.value? = some v) : Spells (.value v) text
  | string {s : String} {text : List Char} (spelled : SpellsString s text) :
    Spells (.value (.string s)) text
  | emptyArray {blank : List Char} (inside : Blank blank) :
    Spells (.value (.array [])) ('[' :: (blank ++ [']']))
  | array {vs : List Json} {text : List Char} (items : Spells (.items vs) text) :
    Spells (.value (.array vs)) ('[' :: (text ++ [']']))
  | emptyObject {blank : List Char} (inside : Blank blank) :
    Spells (.value (.object [])) ('\x7b' :: (blank ++ ['\x7d']))
  | object {entries written : List (String × Json)} {text : List Char}
    (order : written.Perm entries) (members : Spells (.members written) text) :
    Spells (.value (.object entries)) ('\x7b' :: (text ++ ['\x7d']))
  | item {v : Json} {before text after : List Char} (blank : Blank before)
    (value : Spells (.value v) text) (blank' : Blank after) :
    Spells (.items [v]) (before ++ (text ++ after))
  | items {v : Json} {vs : List Json} {text texts : List Char} (first : Spells (.items [v]) text)
    (rest : Spells (.items vs) texts) : Spells (.items (v :: vs)) (text ++ ',' :: texts)
  | member {key : String} {v : Json} {before name after text : List Char} (blank : Blank before)
    (named : SpellsString key name) (blank' : Blank after) (value : Spells (.items [v]) text) :
    Spells (.members [(key, v)]) (before ++ (name ++ (after ++ ':' :: text)))
  | members {entry : String × Json} {entries : List (String × Json)} {text texts : List Char}
    (first : Spells (.members [entry]) text) (rest : Spells (.members entries) texts) :
    Spells (.members (entry :: entries)) (text ++ ',' :: texts)

def SpelledBy (v : Json) (text : String) : Prop := Spells (.items [v]) text.toList

end Cadence.Json
