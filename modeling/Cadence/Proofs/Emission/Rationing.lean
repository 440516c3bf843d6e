import Cadence.Proofs.Emission.Moments
import Cadence.Proofs.Emission.Parted

namespace Cadence

variable {κ τ δ ω : Type} {clocks : Clocks κ τ} {writers : Writers δ ω}

/-- How a writer with a budget answers an offer: it interrupts, takes a part that its budget covers,
or has nothing left and refuses. -/
inductive Rationed (bytes : List UInt8) (left after : Nat) : WriteReply → Prop
  | interrupted (kept : after = left) : Rationed bytes left after .interrupted
  | accepted {n : Nat} (some : 0 < n) (offered : n ≤ bytes.length) (spent : left = after + n) :
    Rationed bytes left after (.accepted n)
  | nothing (spent : left = 0) (kept : after = 0) : Rationed bytes left after (.accepted 0)
  | failed (fault : Fault) (spent : left = 0) (kept : after = 0) :
    Rationed bytes left after (.failed fault)

structure Writers.Limited (writers : Writers δ ω) (d : Option δ) (left : ω → Nat) : Prop where
  write : ∀ bytes ink, bytes ≠ [] →
    Rationed bytes (left ink) (left (writers.write d bytes ink).2) (writers.write d bytes ink).1
  flush : ∀ ink, left (writers.flush d ink).2 = left ink ∧
    ∀ crash, (writers.flush d ink).1 ≠ .crashed crash

namespace Writers.Limited

variable {d : Option δ} {left : ω → Nat}

theorem writeAll (limited : writers.Limited d left) (bytes : List UInt8)
    (s : Minuted (Parted clocks writers) κ δ) :
    left (writeAll d bytes s).2.state.ink + (taken (writeAll d bytes s).2.minutes).length =
        left s.state.ink + (taken s.minutes).length ∧
      ((writeAll d bytes s).1 = .done ∨ left (Cadence.writeAll d bytes s).2.state.ink = 0 ∧
        ∃ fault, (Cadence.writeAll d bytes s).1 = .failed fault) := by
  have answer {b : UInt8} {rest : List UInt8} {reply : WriteReply}
      {s s' : Minuted (Parted clocks writers) κ δ}
      (offer : Surroundings.write d (b :: rest) s = (reply, s')) :
      Rationed (b :: rest) (left s.state.ink) (left s'.state.ink) reply := by
    have rationed := limited.write (b :: rest) s.state.ink (List.cons_ne_nil b rest)
    cases offer
    exact rationed
  have total {b : UInt8} {rest : List UInt8} {reply : WriteReply}
      {s s' : Minuted (Parted clocks writers) κ δ}
      (offer : Surroundings.write d (b :: rest) s = (reply, s')) :
      left s'.state.ink + (taken s'.minutes).length =
        left s.state.ink + (taken s.minutes).length := by
    have rationed := answer offer
    have length : (taken s'.minutes).length =
        (taken s.minutes).length + (reply.taken (b :: rest)).length := by
      rw [minutes_of_offer offer, taken_append, List.length_append]
      simp [taken, Dealing.taken]
    cases rationed with
    | interrupted kept => simp [length, kept, WriteReply.taken]
    | @accepted n some offered spent =>
      rw [length, WriteReply.taken, List.length_take, spent]
      omega
    | nothing spent kept => simp [length, spent, kept, WriteReply.taken]
    | failed fault spent kept => simp [length, spent, kept, WriteReply.taken]
  fun_induction Cadence.writeAll d bytes s with
  | case1 s => exact ⟨rfl, .inl rfl⟩
  | case2 s b rest s' refused =>
    refine ⟨total refused, .inr ⟨?_, _, rfl⟩⟩
    cases answer refused with
    | accepted some _ _ => cases some
    | nothing _ kept => exact kept
  | case3 s b rest n s' some more => exact ⟨more.1.trans (total some), more.2⟩
  | case4 s b rest s' interrupted more => exact ⟨more.1.trans (total interrupted), more.2⟩
  | case5 s b rest fault s' failed =>
    refine ⟨total failed, .inr ⟨?_, fault, rfl⟩⟩
    cases answer failed with
    | failed _ _ kept => exact kept
  | case6 s b rest crash s' crashed => cases answer crashed

theorem writePieces (limited : writers.Limited d left) (pieces : List String)
    (s : Minuted (Parted clocks writers) κ δ) :
    left (writePieces d pieces s).2.state.ink + (taken (writePieces d pieces s).2.minutes).length =
        left s.state.ink + (taken s.minutes).length ∧
      ((writePieces d pieces s).1 = .done ∨ left (Cadence.writePieces d pieces s).2.state.ink = 0 ∧
        ∃ fault, (Cadence.writePieces d pieces s).1 = .failed fault) := by
  induction pieces generalizing s with
  | nil => exact ⟨rfl, .inl rfl⟩
  | cons piece pieces rest =>
    have first := limited.writeAll (utf8 piece) s
    rw [Cadence.writePieces]
    generalize Cadence.writeAll d (utf8 piece) s = written at first
    obtain ⟨delivery, s'⟩ := written
    obtain ⟨total, ended⟩ := first
    cases delivery with
    | done =>
      obtain ⟨later, ended⟩ := rest s'
      exact ⟨later.trans total, ended⟩
    | failed fault => exact ⟨total, ended⟩
    | crashed crash => exact ⟨total, ended⟩

end Writers.Limited

theorem Offers.moments {d : Option δ} {bytes : List UInt8} {delivery : Delivery}
    {offers : List (Dealing κ δ)} (offered : Offers d bytes delivery offers) :
    Cadence.moments offers = (taken offers).map .byte := by
  have writes := offered.writes
  clear offered
  induction offers with
  | nil => rfl
  | cons dealing offers rest =>
    obtain ⟨part, reply, rfl⟩ := writes dealing List.mem_cons_self
    have later := rest fun other member => writes other (List.mem_cons_of_mem _ member)
    change (reply.taken part).map .byte ++ Cadence.moments offers =
      (reply.taken part ++ taken offers).map .byte
    rw [later, List.map_append]

/-- An emission gets as far as the budget, and is flushed if that covers the whole text. -/
theorem Writers.Limited.emit {d : Option δ} {left : ω → Nat} (limited : writers.Limited d left)
    (pieces : List String) (s : Minuted (Parted clocks writers) κ δ) :
    let text := utf8 (String.join pieces)
    moments (emit d pieces s).2.minutes = moments s.minutes ++
        ((text.take (left s.state.ink)).map .byte ++
          if text.length ≤ left s.state.ink then [.flush] else []) ∧
      left (emit d pieces s).2.state.ink = left s.state.ink - text.length ∧
      ∀ crash, (Cadence.emit d pieces s).1 ≠ .crashed crash := by
  intro text
  obtain ⟨offers, minutes, offered⟩ := writePieces_minutes (d := d) (s := s) pieces
  obtain ⟨total, ended⟩ := limited.writePieces pieces s
  rw [Cadence.emit]
  generalize Cadence.writePieces d pieces s = written at minutes offered total ended
  obtain ⟨delivery, s'⟩ := written
  simp only at minutes offered total ended
  have spent : left s'.state.ink + (taken offers).length = left s.state.ink := by
    rw [minutes, taken_append, List.length_append] at total
    omega
  have front : (taken offers).length ≤ text.length := offered.front.length_le
  have shown : moments s'.minutes = moments s.minutes ++ (taken offers).map .byte := by
    rw [minutes, moments_append, offered.moments]
  -- the text came to its end and is flushed, or the budget did
  rcases ended with done | failed
  · subst done
    have whole : taken offers = text := offered.whole.mpr rfl
    rw [whole] at spent shown
    have covered : text.length ≤ left s.state.ink := by omega
    obtain ⟨kept, survives⟩ := limited.flush s'.state.ink
    refine ⟨?_, ?_, survives⟩
    · rw [if_pos covered, List.take_of_length_le covered, ← List.append_assoc, ← shown]
      exact moments_append _ _
    · have same : left (Surroundings.flush d s').2.state.ink = left s'.state.ink := kept
      rw [same]
      omega
  · obtain ⟨empty, fault, rfl⟩ := failed
    have part : taken offers ≠ text := fun whole => by cases offered.whole.mp whole
    have cut : taken offers = text.take (left s.state.ink) := by
      rw [← spent, empty, Nat.zero_add]
      exact List.prefix_iff_eq_take.mp offered.front
    have short : ¬ text.length ≤ left s.state.ink := by
      intro covered
      exact part (cut.trans (List.take_of_length_le covered))
    refine ⟨?_, ?_, ?_⟩
    · rw [if_neg short, List.append_nil, ← cut]
      exact shown
    · rw [empty]
      omega
    · intro crash lost
      cases lost

end Cadence
