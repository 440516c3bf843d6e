import Cadence.Proofs.Emission.Minutes

namespace Cadence

def WriteReply.refusal? : WriteReply → Option Delivery
  | .accepted 0 => some (.failed .nothingAccepted)
  | .accepted (_ + 1) | .interrupted => none
  | .failed fault => some (.failed fault)
  | .crashed crash => some (.crashed crash)

structure Offer where
  bytes : List UInt8
  reply : WriteReply

namespace Offer

variable {κ δ : Type}

def accepted (offer : Offer) : List UInt8 := offer.reply.taken offer.bytes

def refusal? (offer : Offer) : Option Delivery := offer.reply.refusal?

def dealing (d : Option δ) (offer : Offer) : Dealing κ δ := .write d offer.bytes offer.reply

theorem refusal?_ne_done (offer : Offer) : offer.refusal? ≠ some .done := by
  obtain ⟨bytes, reply⟩ := offer
  rcases reply with (_ | n) | _ | fault | crash <;> rintro ⟨⟩

end Offer

def accepted (offers : List Offer) : List UInt8 := offers.flatMap Offer.accepted

theorem taken_dealings {κ δ : Type} (d : Option δ) (offers : List Offer) :
    taken (offers.map (Offer.dealing d : Offer → Dealing κ δ)) = accepted offers :=
  List.flatMap_map ..

/-- The offers of a text to a writer and how they end: each offer is from the front of what is left
of the text, and after a refusal there is no other. -/
inductive Offering : List UInt8 → List Offer → Delivery → Prop
  | nothing : Offering [] [] .done
  | onward {text kept : List UInt8} {offer : Offer} {offers : List Offer} {delivery : Delivery}
      (rest : List UInt8) (front : text = offer.bytes ++ rest) (nonempty : offer.bytes ≠ [])
      (goes : offer.refusal? = none) (parts : offer.bytes = offer.accepted ++ kept)
      (later : Offering (kept ++ rest) offers delivery) : Offering text (offer :: offers) delivery
  | refused {text : List UInt8} {offer : Offer} {delivery : Delivery}
      (rest : List UInt8) (front : text = offer.bytes ++ rest) (nonempty : offer.bytes ≠ [])
      (ends : offer.refusal? = some delivery) : Offering text [offer] delivery

namespace Offering

variable {text more : List UInt8} {offers others : List Offer} {delivery : Delivery}

theorem append (first : Offering text offers .done) (second : Offering more others delivery) :
    Offering (text ++ more) (offers ++ others) delivery := by
  generalize ended : Delivery.done = before at first
  induction first with
  | nothing => exact second
  | @onward _ kept offer _ _ rest front nonempty goes parts _ append =>
    refine .onward (rest ++ more) (by rw [front, List.append_assoc]) nonempty goes parts ?_
    rw [← List.append_assoc]
    exact append ended
  | @refused _ offer _ _ _ _ ends =>
    rw [← ended] at ends
    exact absurd ends offer.refusal?_ne_done

theorem stop (first : Offering text offers delivery) (unfinished : delivery ≠ .done)
    (more : List UInt8) : Offering (text ++ more) offers delivery := by
  induction first with
  | nothing => exact absurd rfl unfinished
  | @onward _ kept offer _ _ rest front nonempty goes parts _ stop =>
    refine .onward (rest ++ more) (by rw [front, List.append_assoc]) nonempty goes parts ?_
    rw [← List.append_assoc]
    exact stop unfinished
  | @refused _ _ _ rest front nonempty ends =>
    exact .refused (rest ++ more) (by rw [front, List.append_assoc]) nonempty ends

/-- An offer goes on where the offers before it got to, and none comes after a refusal. -/
theorem split (offering : Offering text offers delivery) {before after : List Offer} {offer : Offer}
    (here : offers = before ++ offer :: after) :
    offer.bytes ≠ [] ∧ accepted before ++ offer.bytes <+: text ∧
      (after ≠ [] → offer.refusal? = none) := by
  induction offering generalizing before with
  | nothing => simp at here
  | @onward _ kept first offers _ rest front nonempty goes parts _ split =>
    cases before with
    | nil =>
      obtain ⟨rfl, rfl⟩ := List.cons_eq_cons.mp here
      exact ⟨nonempty, ⟨rest, front.symm⟩, fun _ => goes⟩
    | cons other before =>
      obtain ⟨rfl, later⟩ := List.cons_eq_cons.mp here
      obtain ⟨nonempty, onward, alone⟩ := split later
      refine ⟨nonempty, ?_, alone⟩
      rw [front, parts, List.append_assoc]
      change (first.accepted ++ accepted before) ++ offer.bytes <+: _
      rw [List.append_assoc]
      exact (List.prefix_append_right_inj _).mpr onward
  | @refused _ first _ rest front nonempty ends =>
    cases before with
    | nil =>
      obtain ⟨rfl, rfl⟩ := List.cons_eq_cons.mp here
      exact ⟨nonempty, ⟨rest, front.symm⟩, fun more => absurd rfl more⟩
    | cons other before => simp at here

theorem first_refusal (offering : Offering text offers delivery) :
    offers.findSome? Offer.refusal? = if delivery = .done then none else some delivery := by
  induction offering with
  | nothing => rfl
  | onward rest front nonempty goes parts later verdict => rw [List.findSome?_cons, goes, verdict]
  | @refused _ offer delivery rest front nonempty ends =>
    have failed : delivery ≠ .done := by
      rintro rfl
      exact offer.refusal?_ne_done ends
    rw [List.findSome?_cons, ends, if_neg failed]

end Offering

section

variable {σ κ δ : Type} [Surroundings σ κ δ] {d : Option δ}

theorem writeAll_offering (bytes : List UInt8) (s : Minuted σ κ δ) :
    ∃ offers, (writeAll d bytes s).2.minutes = s.minutes ++ offers.map (Offer.dealing d) ∧
      Offering bytes offers (writeAll d bytes s).1 := by
  fun_induction writeAll d bytes s with
  | case1 s => exact ⟨[], by simp, .nothing⟩
  | case2 s b rest s' nothing =>
    exact ⟨[⟨b :: rest, _⟩], minutes_of_offer nothing,
      .refused [] (List.append_nil _).symm (by simp) rfl⟩
  | case3 s b rest n s' some more =>
    obtain ⟨offers, minutes, later⟩ := more
    refine ⟨⟨b :: rest, .accepted (n + 1)⟩ :: offers, ?_, .onward [] (List.append_nil _).symm
      (by simp) rfl (List.take_append_drop (n + 1) (b :: rest)).symm ?_⟩
    · rw [minutes, minutes_of_offer some, List.append_assoc]
      rfl
    · rwa [List.append_nil]
  | case4 s b rest s' interrupted more =>
    obtain ⟨offers, minutes, later⟩ := more
    refine ⟨⟨b :: rest, .interrupted⟩ :: offers, ?_, .onward [] (List.append_nil _).symm (by simp)
      rfl (List.nil_append (b :: rest)).symm ?_⟩
    · rw [minutes, minutes_of_offer interrupted, List.append_assoc]
      rfl
    · rwa [List.append_nil]
  | case5 s b rest fault s' failed =>
    exact ⟨[⟨b :: rest, _⟩], minutes_of_offer failed,
      .refused [] (List.append_nil _).symm (by simp) rfl⟩
  | case6 s b rest crash s' crashed =>
    exact ⟨[⟨b :: rest, _⟩], minutes_of_offer crashed,
      .refused [] (List.append_nil _).symm (by simp) rfl⟩

theorem writePieces_offering (pieces : List String) (s : Minuted σ κ δ) :
    ∃ offers, (writePieces d pieces s).2.minutes = s.minutes ++ offers.map (Offer.dealing d) ∧
      Offering (utf8 (String.join pieces)) offers (writePieces d pieces s).1 := by
  induction pieces generalizing s with
  | nil => exact ⟨[], by simp [writePieces], .nothing⟩
  | cons piece pieces rest =>
    obtain ⟨offers, minutes, first⟩ := writeAll_offering (d := d) (utf8 piece) s
    rw [writePieces, String.join_cons, utf8_append]
    generalize writeAll d (utf8 piece) s = written at minutes first
    obtain ⟨delivery, s'⟩ := written
    cases delivery with
    | done =>
      obtain ⟨others, more, later⟩ := rest s'
      refine ⟨offers ++ others, ?_, first.append later⟩
      rw [more, minutes, List.append_assoc, List.map_append]
    | failed fault => exact ⟨offers, minutes, first.stop (by simp) _⟩
    | crashed crash => exact ⟨offers, minutes, first.stop (by simp) _⟩

/-- An emission offers its text from the front and goes on after what was taken, up to the first
refusal. It flushes once if the text was taken whole, and not otherwise; what it returns is the
first refusal or else what the flush came to. -/
theorem emit_outcome (d : Option δ) (pieces : List String) (s : σ) :
    let text := utf8 (String.join pieces)
    let minuted := emit d pieces (Minuted.fresh s : Minuted σ κ δ)
    let outcome := (emit d pieces s).1
    (emit d pieces s).2 = minuted.2.state ∧
    ∃ (offers : List Offer) (flushes : List Delivery),
      minuted.2.minutes = offers.map (Offer.dealing d) ++ flushes.map (.flush d) ∧
      accepted offers <+: text ∧
      (∀ before offer after, offers = before ++ offer :: after →
        offer.bytes ≠ [] ∧ accepted before ++ offer.bytes <+: text ∧
          (after ≠ [] → offer.refusal? = none)) ∧
      flushes.length = (if accepted offers = text then 1 else 0) ∧
      (offers.findSome? Offer.refusal? = none ↔ accepted offers = text) ∧
      (offers.findSome? Offer.refusal?).or flushes.head? = some outcome ∧
      (outcome = .done ↔ accepted offers = text ∧ flushes = [.done]) := by
  intro text minuted outcome
  have same := emit_state d pieces (Minuted.fresh s : Minuted σ κ δ)
  refine ⟨congrArg Prod.snd same, ?_⟩
  have result : outcome = minuted.1 := congrArg Prod.fst same
  obtain ⟨offers, minutes, offering⟩ :=
    writePieces_offering (d := d) pieces (Minuted.fresh s : Minuted σ κ δ)
  obtain ⟨recorded, minutes', offered⟩ :=
    writePieces_minutes (d := d) (s := (Minuted.fresh s : Minuted σ κ δ)) pieces
  obtain rfl : recorded = offers.map (Offer.dealing d) :=
    List.append_cancel_left (minutes'.symm.trans minutes)
  have front := offered.front
  have whole := offered.whole
  have refusal := offering.first_refusal
  rw [taken_dealings] at front whole
  refine ⟨offers, ?_⟩
  simp only [result, minuted, emit]
  generalize writePieces d pieces (Minuted.fresh s : Minuted σ κ δ) = written at *
  obtain ⟨delivery, s'⟩ := written
  -- the text was taken whole, or an offer was refused
  by_cases done : delivery = .done
  · subst done
    have all : accepted offers = text := whole.mpr rfl
    refine ⟨[(Surroundings.flush d s').1], ?_, front, fun _ _ _ => offering.split, ?_⟩
    · exact congrArg (· ++ [Dealing.flush d (Surroundings.flush d s').1]) minutes
    · simp [all, refusal]
  · have part : accepted offers ≠ text := fun all => done (whole.mp all)
    refine ⟨[], ?_, front, fun _ _ _ => offering.split, ?_⟩
    · cases delivery with
      | done => exact absurd rfl done
      | _ => exact minutes.trans (List.append_nil _).symm
    · cases delivery with
      | done => exact absurd rfl done
      | _ => simp [part, refusal]

end

end Cadence
