import Cadence.Text.Lossy

namespace Cadence

@[simp] theorem utf8_append (first second : String) :
    utf8 (first ++ second) = utf8 first ++ utf8 second := by
  rw [utf8, String.toList_append, List.flatMap_append]
  rfl

namespace Lossy

theorem toNat_byte (n : Nat) (small : n < 256) : (UInt8.ofNat n).toNat = n :=
  UInt8.toNat_ofNat_of_lt' small

theorem utf8EncodeChar_eq (c : Char) : String.utf8EncodeChar c =
    if c.toNat ≤ 0x7F then [UInt8.ofNat c.toNat]
    else if c.toNat ≤ 0x7FF then
      [UInt8.ofNat (c.toNat / 64 % 0x20 + 0xC0), UInt8.ofNat (c.toNat % 0x40 + 0x80)]
    else if c.toNat ≤ 0xFFFF then
      [UInt8.ofNat (c.toNat / 4096 % 0x10 + 0xE0), UInt8.ofNat (c.toNat / 64 % 0x40 + 0x80),
        UInt8.ofNat (c.toNat % 0x40 + 0x80)]
    else
      [UInt8.ofNat (c.toNat / 262144 % 0x08 + 0xF0), UInt8.ofNat (c.toNat / 4096 % 0x40 + 0x80),
        UInt8.ofNat (c.toNat / 64 % 0x40 + 0x80), UInt8.ofNat (c.toNat % 0x40 + 0x80)] := rfl

theorem begin_single {b : UInt8} (one : b.toNat < 0x80) :
    begin b = .error (some (Char.ofNat b.toNat)) := by
  rw [begin, if_pos one]

theorem begin_double {b : UInt8} (above : 0xC2 ≤ b.toNat) (below : b.toNat < 0xE0) :
    begin b = .ok ⟨b.toNat - 0xC0, 1, 0x80, 0xBF⟩ := by
  rw [begin, if_neg (by omega), if_neg (by omega), if_pos below]

theorem begin_triple {b : UInt8} (above : 0xE0 ≤ b.toNat) (below : b.toNat < 0xF0) :
    begin b = .ok ⟨b.toNat - 0xE0, 2, if b.toNat = 0xE0 then 0xA0 else 0x80,
      if b.toNat = 0xED then 0x9F else 0xBF⟩ := by
  rw [begin, if_neg (by omega), if_neg (by omega), if_neg (by omega)]
  by_cases least : b.toNat = 0xE0
  · rw [if_pos least, if_pos least, if_neg (by omega), least]
  · rw [if_neg least, if_neg least]
    by_cases surrogate : b.toNat = 0xED
    · rw [if_pos surrogate, if_pos surrogate, surrogate]
    · rw [if_neg surrogate, if_neg surrogate, if_pos below]

theorem begin_quadruple {b : UInt8} (above : 0xF0 ≤ b.toNat) (below : b.toNat ≤ 0xF4) :
    begin b = .ok ⟨b.toNat - 0xF0, 3, if b.toNat = 0xF0 then 0x90 else 0x80,
      if b.toNat = 0xF4 then 0x8F else 0xBF⟩ := by
  rw [begin, if_neg (by omega), if_neg (by omega), if_neg (by omega), if_neg (by omega),
    if_neg (by omega), if_neg (by omega)]
  by_cases least : b.toNat = 0xF0
  · rw [if_pos least, if_pos least, if_neg (by omega), least]
  · rw [if_neg least, if_neg least]
    by_cases last : b.toNat = 0xF4
    · rw [if_neg (by omega), if_pos last, if_pos last, last]
    · rw [if_pos (by omega), if_neg last]

namespace Decoder

theorem feed_first {done : String} {b : UInt8} {p : Partial} (first : begin b = .ok p) :
    feed ⟨done, none⟩ b = ⟨done, some p⟩ := by
  simp only [feed, beginning, first]

theorem feed_single {done : String} {b : UInt8} {c : Char} (single : begin b = .error (some c)) :
    feed ⟨done, none⟩ b = ⟨done.push c, none⟩ := by
  simp only [feed, beginning, single, Option.getD_some]

theorem feed_next {done : String} {b : UInt8} {bits missing low high : Nat} (above : low ≤ b.toNat)
    (below : b.toNat ≤ high) :
    feed ⟨done, some ⟨bits, missing + 2, low, high⟩⟩ b =
      ⟨done, some ⟨bits * 64 + b.toNat % 64, missing + 1, 0x80, 0xBF⟩⟩ := by
  simp only [feed]
  rw [if_pos ⟨above, below⟩]

theorem feed_last {done : String} {b : UInt8} {bits low high : Nat} (above : low ≤ b.toNat)
    (below : b.toNat ≤ high) :
    feed ⟨done, some ⟨bits, 1, low, high⟩⟩ b =
      ⟨done.push (Char.ofNat (bits * 64 + b.toNat % 64)), none⟩ := by
  simp only [feed]
  rw [if_pos ⟨above, below⟩]

/-- The bytes of one character. The range of the second byte is where the encodings of different
lengths, and the surrogates, are told apart. -/
theorem feed_char (done : String) (c : Char) :
    (String.utf8EncodeChar c).foldl feed ⟨done, none⟩ = ⟨done.push c, none⟩ := by
  have valid : c.toNat < 0xD800 ∨ 0xDFFF < c.toNat ∧ c.toNat < 0x110000 := c.valid
  have same : Char.ofNat c.toNat = c := Char.ofNat_toNat c
  rw [utf8EncodeChar_eq]
  generalize c.toNat = n at valid same
  have tail (k : Nat) : (UInt8.ofNat (k % 0x40 + 0x80)).toNat = k % 0x40 + 0x80 :=
    toNat_byte _ (by omega)
  by_cases one : n ≤ 0x7F
  · rw [if_pos one, List.foldl_cons, List.foldl_nil]
    have byte := toNat_byte n (by omega)
    rw [feed_single (begin_single (by omega)), byte, same]
  rw [if_neg one]
  by_cases two : n ≤ 0x7FF
  · rw [if_pos two, List.foldl_cons, List.foldl_cons, List.foldl_nil]
    have first := toNat_byte (n / 64 % 0x20 + 0xC0) (by omega)
    have second := tail n
    have bits : (n / 64 % 0x20 + 0xC0 - 0xC0) * 64 + (n % 0x40 + 0x80) % 64 = n := by omega
    rw [feed_first (begin_double (by omega) (by omega)), feed_last (by omega) (by omega),
      first, second, bits, same]
  rw [if_neg two]
  by_cases three : n ≤ 0xFFFF
  · rw [if_pos three, List.foldl_cons, List.foldl_cons, List.foldl_cons, List.foldl_nil]
    have first := toNat_byte (n / 4096 % 0x10 + 0xE0) (by omega)
    have second := tail (n / 64)
    have third := tail n
    have bits : ((n / 4096 % 0x10 + 0xE0 - 0xE0) * 64 + (n / 64 % 0x40 + 0x80) % 64) * 64 +
        (n % 0x40 + 0x80) % 64 = n := by omega
    rw [feed_first (begin_triple (by omega) (by omega)),
      feed_next (by split <;> omega) (by split <;> omega), feed_last (by omega) (by omega),
      first, second, third, bits, same]
  · rw [if_neg three, List.foldl_cons, List.foldl_cons, List.foldl_cons, List.foldl_cons,
      List.foldl_nil]
    have first := toNat_byte (n / 262144 % 0x08 + 0xF0) (by omega)
    have second := tail (n / 4096)
    have third := tail (n / 64)
    have fourth := tail n
    have bits : (((n / 262144 % 0x08 + 0xF0 - 0xF0) * 64 + (n / 4096 % 0x40 + 0x80) % 64) * 64 +
        (n / 64 % 0x40 + 0x80) % 64) * 64 + (n % 0x40 + 0x80) % 64 = n := by omega
    rw [feed_first (begin_quadruple (by omega) (by omega)),
      feed_next (by split <;> omega) (by split <;> omega), feed_next (by omega) (by omega),
      feed_last (by omega) (by omega), first, second, third, fourth, bits, same]

theorem feed_text (done : String) (s : String) :
    (utf8 s).foldl feed ⟨done, none⟩ = ⟨done ++ s, none⟩ := by
  rw [utf8]
  induction chars : s.toList generalizing done s with
  | nil =>
    have empty : s = "" := String.toList_eq_nil_iff.mp chars
    rw [empty, String.append_empty]
    rfl
  | cons c cs rest =>
    have tail : (String.ofList cs).toList = cs := String.toList_ofList
    have whole : s = String.singleton c ++ String.ofList cs := by
      rw [← String.toList_inj, chars, String.toList_append, String.toList_singleton,
        String.toList_ofList, List.singleton_append]
    rw [List.flatMap_cons, List.foldl_append, feed_char, rest _ _ tail, whole,
      String.push_eq_append, String.append_assoc]

end Decoder

theorem decode_utf8 (s : String) : decode (utf8 s) = s := by
  rw [decode, Decoder.empty, Decoder.feed_text, String.empty_append]
  rfl

end Lossy

end Cadence
