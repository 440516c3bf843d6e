import Cadence.Proofs.Text.Lossy
import Cadence.Emission

namespace Cadence

inductive Dealing (κ δ : Type)
  | read (clock : κ) (now : Instant)
  | write (destination : Option δ) (bytes : List UInt8) (reply : WriteReply)
  | flush (destination : Option δ) (delivery : Delivery)
  | log (event : Event)

def WriteReply.taken : WriteReply → List UInt8 → List UInt8
  | .accepted n, bytes => bytes.take n
  | _, _ => []

variable {σ κ δ : Type}

namespace Dealing

def reading? : Dealing κ δ → Option (κ × Instant)
  | .read clock now => some (clock, now)
  | _ => none

def taken : Dealing κ δ → List UInt8
  | .write _ bytes reply => reply.taken bytes
  | _ => []

def IsWith (destination : Option δ) : Dealing κ δ → Prop
  | .write place _ _ | .flush place _ => place = destination
  | _ => False

instance [DecidableEq δ] (destination : Option δ) (dealing : Dealing κ δ) :
    Decidable (dealing.IsWith destination) := by
  cases dealing <;> unfold IsWith <;> infer_instance

end Dealing

def readings (minutes : List (Dealing κ δ)) : List (κ × Instant) :=
  minutes.filterMap Dealing.reading?

def taken (minutes : List (Dealing κ δ)) : List UInt8 := minutes.flatMap Dealing.taken

@[simp] theorem readings_append (first second : List (Dealing κ δ)) :
    readings (first ++ second) = readings first ++ readings second :=
  List.filterMap_append

@[simp] theorem taken_append (first second : List (Dealing κ δ)) :
    taken (first ++ second) = taken first ++ taken second :=
  List.flatMap_append

/-- Surroundings that keep minutes. -/
structure Minuted (σ κ δ : Type) where
  state : σ
  minutes : List (Dealing κ δ)

namespace Minuted

def fresh (s : σ) : Minuted σ κ δ := ⟨s, []⟩

def meanwhile (change : σ → σ) (s : Minuted σ κ δ) : Minuted σ κ δ :=
  { s with state := change s.state }

variable [Surroundings σ κ δ]

instance : Surroundings (Minuted σ κ δ) κ δ where
  read clock s :=
    let reading := Surroundings.read clock s.state
    (reading.1, ⟨reading.2, s.minutes ++ [.read clock reading.1]⟩)
  write d bytes s :=
    let offer := Surroundings.write d bytes s.state
    (offer.1, ⟨offer.2, s.minutes ++ [.write d bytes offer.1]⟩)
  flush d s :=
    let flushed := Surroundings.flush d s.state
    (flushed.1, ⟨flushed.2, s.minutes ++ [.flush d flushed.1]⟩)
  log e s := ⟨Surroundings.log e s.state, s.minutes ++ [.log e]⟩
  patience d s := Surroundings.patience d s.state
  patience_write d bytes s := Surroundings.patience_write d bytes s.state

theorem minutes_read (clock : κ) (s : Minuted σ κ δ) :
    (Surroundings.read clock s).2.minutes =
      s.minutes ++ [.read clock (Surroundings.read clock s).1] := rfl

theorem minutes_log (e : Event) (s : Minuted σ κ δ) :
    (Surroundings.log e s).minutes = s.minutes ++ [.log e] := rfl

end Minuted

/-- The offers of bytes to a destination, all of them taken if the delivery is done, and otherwise
only a part from the front. -/
structure Offers (d : Option δ) (bytes : List UInt8) (delivery : Delivery)
    (offers : List (Dealing κ δ)) : Prop where
  writes : ∀ dealing ∈ offers, ∃ part reply, dealing = .write d part reply
  front : taken offers <+: bytes
  whole : taken offers = bytes ↔ delivery = .done

namespace Offers

variable {d : Option δ} {bytes more : List UInt8} {delivery : Delivery}
  {offers others : List (Dealing κ δ)}

theorem nothing : Offers d [] .done ([] : List (Dealing κ δ)) where
  writes := by simp
  front := List.nil_prefix
  whole := by simp [taken]

theorem append (first : Offers d bytes .done offers) (second : Offers d more delivery others) :
    Offers d (bytes ++ more) delivery (offers ++ others) where
  writes := fun dealing member =>
    (List.mem_append.mp member).elim (first.writes dealing) (second.writes dealing)
  front := by
    rw [taken_append, first.whole.mpr rfl]
    exact (List.prefix_append_right_inj bytes).mpr second.front
  whole := by
    rw [taken_append, first.whole.mpr rfl, List.append_cancel_left_eq]
    exact second.whole

theorem stop (first : Offers d bytes delivery offers) (unfinished : delivery ≠ .done) :
    Offers d (bytes ++ more) delivery offers where
  writes := first.writes
  front := first.front.trans (List.prefix_append bytes more)
  whole := by
    refine iff_of_false ?_ unfinished
    intro whole
    have front := first.front
    rw [whole] at front
    have none : more = [] := by
      have length := front.length_le
      rw [List.length_append] at length
      exact List.eq_nil_of_length_eq_zero (by omega)
    rw [none, List.append_nil] at whole
    exact unfinished (first.whole.mp whole)

theorem took (bytes : List UInt8) (reply : WriteReply) :
    Offers d (reply.taken bytes) .done [Dealing.write (κ := κ) d bytes reply] where
  writes := by simp
  front := by simp [taken, Dealing.taken]
  whole := by simp [taken, Dealing.taken]

theorem refused (some : bytes ≠ []) {reply : WriteReply} (unfinished : delivery ≠ .done)
    (none : reply.taken bytes = []) :
    Offers d bytes delivery [Dealing.write (κ := κ) d bytes reply] where
  writes := by simp
  front := by simp [taken, Dealing.taken, none]
  whole := by simp [taken, Dealing.taken, none, some.symm, unfinished]

end Offers

/-- The dealings of an emission. A text that was taken whole is flushed once, and then the emission
ends as the flush did. -/
inductive Emission (d : Option δ) (bytes : List UInt8) : Delivery → List (Dealing κ δ) → Prop
  | whole {offers : List (Dealing κ δ)} (offered : Offers d bytes .done offers)
      (flushed : Delivery) : Emission d bytes flushed (offers ++ [.flush d flushed])
  | part {offers : List (Dealing κ δ)} {delivery : Delivery}
      (offered : Offers d bytes delivery offers) (unfinished : delivery ≠ .done) :
      Emission d bytes delivery offers

section

variable [Surroundings σ κ δ] {d : Option δ} {s s' : Minuted σ κ δ}

theorem minutes_of_offer {bytes : List UInt8} {reply : WriteReply}
    (offer : Surroundings.write d bytes s = (reply, s')) :
    s'.minutes = s.minutes ++ [.write d bytes reply] := by
  cases offer
  rfl

theorem writeAll_minutes (bytes : List UInt8) :
    ∃ offers, (writeAll d bytes s).2.minutes = s.minutes ++ offers ∧
      Offers d bytes (writeAll d bytes s).1 offers := by
  fun_induction writeAll d bytes s with
  | case1 s => exact ⟨[], by simp, .nothing⟩
  | case2 s b rest s' nothing =>
    exact ⟨_, minutes_of_offer nothing, .refused (by simp) (by simp) rfl⟩
  | case3 s b rest n s' some more =>
    obtain ⟨offers, minutes, later⟩ := more
    have parts : (WriteReply.accepted (n + 1)).taken (b :: rest) ++ rest.drop n = b :: rest :=
      List.take_append_drop (n + 1) (b :: rest)
    have all := (Offers.took (b :: rest) (.accepted (n + 1))).append later
    rw [parts] at all
    refine ⟨_, ?_, all⟩
    rw [minutes, minutes_of_offer some, List.append_assoc]
  | case4 s b rest s' interrupted more =>
    obtain ⟨offers, minutes, later⟩ := more
    refine ⟨_, ?_, (Offers.took (b :: rest) .interrupted).append later⟩
    rw [minutes, minutes_of_offer interrupted, List.append_assoc]
  | case5 s b rest fault s' failed =>
    exact ⟨_, minutes_of_offer failed, .refused (by simp) (by simp) rfl⟩
  | case6 s b rest crash s' crashed =>
    exact ⟨_, minutes_of_offer crashed, .refused (by simp) (by simp) rfl⟩

theorem writePieces_minutes (pieces : List String) :
    ∃ offers, (writePieces d pieces s).2.minutes = s.minutes ++ offers ∧
      Offers d (utf8 (String.join pieces)) (writePieces d pieces s).1 offers := by
  induction pieces generalizing s with
  | nil => exact ⟨[], by simp [writePieces], .nothing⟩
  | cons piece pieces rest =>
    obtain ⟨offers, minutes, first⟩ := writeAll_minutes (d := d) (s := s) (utf8 piece)
    rw [writePieces, String.join_cons, utf8_append]
    generalize writeAll d (utf8 piece) s = written at minutes first
    obtain ⟨delivery, s'⟩ := written
    cases delivery with
    | done =>
      obtain ⟨others, more, later⟩ := rest (s := s')
      exact ⟨_, by rw [more, minutes, List.append_assoc], first.append later⟩
    | failed fault => exact ⟨_, minutes, first.stop (by simp)⟩
    | crashed crash => exact ⟨_, minutes, first.stop (by simp)⟩

theorem emit_minutes (d : Option δ) (pieces : List String) (s : Minuted σ κ δ) :
    ∃ dealings, (emit d pieces s).2.minutes = s.minutes ++ dealings ∧
      Emission d (utf8 (String.join pieces)) (emit d pieces s).1 dealings := by
  obtain ⟨offers, minutes, offered⟩ := writePieces_minutes (d := d) (s := s) pieces
  rw [emit]
  generalize writePieces d pieces s = written at minutes offered
  obtain ⟨delivery, s'⟩ := written
  cases delivery with
  | done =>
    refine ⟨_, ?_, .whole offered (Surroundings.flush d s').1⟩
    rw [← List.append_assoc, ← minutes]
    rfl
  | failed fault => exact ⟨offers, minutes, .part offered (by simp)⟩
  | crashed crash => exact ⟨offers, minutes, .part offered (by simp)⟩

theorem writeAll_state (bytes : List UInt8) (s : Minuted σ κ δ) :
    writeAll d bytes s.state = ((writeAll d bytes s).1, (writeAll d bytes s).2.state) := by
  have unwatched {bytes : List UInt8} {reply : WriteReply} {s s' : Minuted σ κ δ}
      (offer : Surroundings.write d bytes s = (reply, s')) :
      Surroundings.write d bytes s.state = (reply, s'.state) := by
    cases offer
    rfl
  fun_induction writeAll d bytes s with
  | case1 s => rw [writeAll_nil]
  | case2 s b rest s' nothing => rw [writeAll_cons, unwatched nothing]
  | case3 s b rest n s' some more => rw [writeAll_cons, unwatched some, ← more]
  | case4 s b rest s' interrupted more => rw [writeAll_cons, unwatched interrupted, ← more]
  | case5 s b rest fault s' failed => rw [writeAll_cons, unwatched failed]
  | case6 s b rest crash s' crashed => rw [writeAll_cons, unwatched crashed]

theorem writePieces_state (pieces : List String) (s : Minuted σ κ δ) :
    writePieces d pieces s.state =
      ((writePieces d pieces s).1, (writePieces d pieces s).2.state) := by
  induction pieces generalizing s with
  | nil => rfl
  | cons piece pieces rest =>
    rw [writePieces, writePieces, writeAll_state]
    generalize writeAll d (utf8 piece) s = written
    obtain ⟨delivery, s'⟩ := written
    cases delivery with
    | done => exact rest s'
    | failed fault => rfl
    | crashed crash => rfl

theorem emit_state (d : Option δ) (pieces : List String) (s : Minuted σ κ δ) :
    emit d pieces s.state = ((emit d pieces s).1, (emit d pieces s).2.state) := by
  rw [emit, emit, writePieces_state]
  generalize writePieces d pieces s = written
  obtain ⟨delivery, s'⟩ := written
  cases delivery <;> rfl

end

namespace Emission

variable {d : Option δ} {bytes : List UInt8} {delivery : Delivery} {dealings : List (Dealing κ δ)}

theorem isWith (emission : Emission d bytes delivery dealings) :
    ∀ dealing ∈ dealings, dealing.IsWith d := by
  cases emission with
  | whole offered flushed =>
    intro dealing member
    rcases List.mem_append.mp member with member | member
    · obtain ⟨_, _, rfl⟩ := offered.writes dealing member
      rfl
    · cases List.mem_singleton.mp member
      rfl
  | part offered unfinished =>
    intro dealing member
    obtain ⟨_, _, rfl⟩ := offered.writes dealing member
    rfl

theorem readings (emission : Emission d bytes delivery dealings) :
    Cadence.readings dealings = [] := by
  rw [Cadence.readings, List.filterMap_eq_nil_iff]
  intro dealing member
  have writing := emission.isWith dealing member
  cases dealing with
  | read clock now => exact writing.elim
  | _ => rfl

theorem front (emission : Emission d bytes delivery dealings) : taken dealings <+: bytes := by
  cases emission with
  | whole offered flushed =>
    rw [taken_append]
    simpa [taken, Dealing.taken] using offered.front
  | part offered unfinished => exact offered.front

end Emission

end Cadence
