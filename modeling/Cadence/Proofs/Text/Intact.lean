import Cadence.Proofs.Text.Lossy

namespace Cadence.Lossy

def IsTrailing (b : UInt8) : Prop := 0x80 ≤ b.toNat ∧ b.toNat ≤ 0xBF

theorem utf8EncodeChar_lead (c : Char) :
    ∃ b rest, String.utf8EncodeChar c = b :: rest ∧ ¬ IsTrailing b := by
  have lead (n : Nat) (high : 0xC0 ≤ n) (small : n < 256) : ¬ IsTrailing (UInt8.ofNat n) := by
    rw [IsTrailing, toNat_byte n small]
    omega
  rw [utf8EncodeChar_eq]
  by_cases one : c.toNat ≤ 0x7F
  · rw [if_pos one]
    refine ⟨_, _, rfl, ?_⟩
    rw [IsTrailing, toNat_byte _ (by omega)]
    omega
  rw [if_neg one]
  by_cases two : c.toNat ≤ 0x7FF
  · rw [if_pos two]
    exact ⟨_, _, rfl, lead _ (by omega) (by omega)⟩
  rw [if_neg two]
  by_cases three : c.toNat ≤ 0xFFFF
  · rw [if_pos three]
    exact ⟨_, _, rfl, lead _ (by omega) (by omega)⟩
  · rw [if_neg three]
    exact ⟨_, _, rfl, lead _ (by omega) (by omega)⟩

def Partial.IsProper (p : Partial) : Prop := 0x80 ≤ p.low ∧ p.high ≤ 0xBF

theorem begin_proper {b : UInt8} {p : Partial} (first : begin b = .ok p) : p.IsProper := by
  simp only [begin] at first
  grind [Partial.IsProper]

namespace Decoder

def IsProper (d : Decoder) : Prop := ∀ p ∈ d.pending, p.IsProper

theorem beginning_proper (done : String) (b : UInt8) : (beginning done b).IsProper := by
  rw [beginning]
  cases first : begin b with
  | ok p =>
    rintro _ ⟨⟩
    exact begin_proper first
  | error c => rintro _ ⟨⟩

theorem feed_proper (d : Decoder) (b : UInt8) : (d.feed b).IsProper := by
  obtain ⟨done, _ | p⟩ := d
  · exact beginning_proper done b
  · simp only [feed]
    split
    · split
      · rintro _ ⟨⟩
      · rintro _ ⟨⟩
      · rintro _ ⟨⟩
        exact ⟨Nat.le_refl 0x80, Nat.le_refl 0xBF⟩
    · exact beginning_proper _ b

theorem foldl_proper (bytes : List UInt8) {d : Decoder} (proper : d.IsProper) :
    (bytes.foldl feed d).IsProper := by
  induction bytes generalizing d with
  | nil => exact proper
  | cons b bytes rest => exact rest (d.feed_proper b)

theorem append_push (front done : String) (c : Char) :
    front ++ done.push c = (front ++ done).push c := by
  rw [String.push_eq_append, String.push_eq_append, String.append_assoc]

def after (front : String) (d : Decoder) : Decoder := { d with done := front ++ d.done }

theorem beginning_after (front done : String) (b : UInt8) :
    beginning (front ++ done) b = (beginning done b).after front := by
  simp only [beginning]
  cases begin b with
  | ok p => rfl
  | error c => simp only [after, append_push]

theorem feed_after (front : String) (d : Decoder) (b : UInt8) :
    (d.after front).feed b = (d.feed b).after front := by
  obtain ⟨done, _ | p⟩ := d
  · exact beginning_after front done b
  · simp only [feed, after]
    split
    · split <;> simp only [append_push]
    · rw [← append_push]
      exact beginning_after front _ b

theorem foldl_after (front : String) (bytes : List UInt8) (d : Decoder) :
    bytes.foldl feed (d.after front) = (bytes.foldl feed d).after front := by
  induction bytes generalizing d with
  | nil => rfl
  | cons b bytes rest => rw [List.foldl_cons, feed_after, rest, List.foldl_cons]

theorem finish_after (front : String) (d : Decoder) :
    (d.after front).finish = front ++ d.finish := by
  obtain ⟨done, _ | p⟩ := d
  · rfl
  · exact (append_push front done replacement).symm

/-- A byte that begins a character ends the one before it. -/
theorem feed_lead {d : Decoder} (proper : d.IsProper) {b : UInt8} (lead : ¬ IsTrailing b) :
    d.feed b = feed ⟨d.finish, none⟩ b := by
  obtain ⟨done, _ | p⟩ := d
  · rfl
  · obtain ⟨low, high⟩ := proper p rfl
    have outside : ¬ (p.low ≤ b.toNat ∧ b.toNat ≤ p.high) := by
      rw [IsTrailing] at lead
      omega
    simp only [feed, if_neg outside, finish]

theorem foldl_text {d : Decoder} (proper : d.IsProper) {t : String} (some : t ≠ "") :
    (utf8 t).foldl feed d = ⟨d.finish ++ t, none⟩ := by
  rw [← feed_text d.finish t]
  obtain ⟨c, cs, chars⟩ := List.exists_cons_of_ne_nil (mt String.toList_eq_nil_iff.mp some)
  obtain ⟨b, rest, bytes, lead⟩ := utf8EncodeChar_lead c
  rw [utf8, chars, List.flatMap_cons, bytes, List.cons_append, List.foldl_cons, List.foldl_cons,
    feed_lead proper lead]

end Decoder

/-- Whatever bytes stand before and after a text, they decode as they would alone. -/
theorem decode_around (before after : List UInt8) {t : String} (some : t ≠ "") :
    decode (before ++ utf8 t ++ after) = decode before ++ t ++ decode after := by
  have proper : (before.foldl Decoder.feed .empty).IsProper :=
    Decoder.foldl_proper before (by rintro _ ⟨⟩)
  have rest := Decoder.foldl_after (decode before ++ t) after .empty
  rw [Decoder.after, Decoder.empty, String.append_empty] at rest
  rw [decode, List.foldl_append, List.foldl_append, Decoder.foldl_text proper some]
  change (after.foldl Decoder.feed ⟨decode before ++ t, none⟩).finish = _
  rw [rest, Decoder.finish_after]
  rfl

theorem decode_before (bytes : List UInt8) (t : String) :
    decode (bytes ++ utf8 t) = decode bytes ++ t := by
  by_cases none : t = ""
  · subst none
    simp [utf8]
  · have whole := decode_around bytes [] none
    rwa [List.append_nil, show decode [] = "" from rfl, String.append_empty] at whole

theorem decode_after (t : String) (bytes : List UInt8) :
    decode (utf8 t ++ bytes) = t ++ decode bytes := by
  by_cases none : t = ""
  · subst none
    simp [utf8]
  · exact decode_around [] bytes none

end Cadence.Lossy
