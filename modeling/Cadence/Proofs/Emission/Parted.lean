import Cadence.Proofs.Emission.Minutes
import Cadence.Proofs.Emission.Peaceful

namespace Cadence

section

variable {σ κ δ α : Type} [Surroundings σ κ δ] {d : Option δ}

theorem writeAll_view (view : σ → α)
    (write : ∀ bytes s, view (Surroundings.write d bytes s).2 = view s)
    (bytes : List UInt8) (s : σ) : view (writeAll d bytes s).2 = view s := by
  have after {bytes : List UInt8} {reply : WriteReply} {s s' : σ}
      (offer : Surroundings.write d bytes s = (reply, s')) : view s' = view s := by
    rw [← write bytes s, offer]
  fun_induction writeAll d bytes s with
  | case1 s => rfl
  | case2 s b rest s' nothing => exact after nothing
  | case3 s b rest n s' some more => exact more.trans (after some)
  | case4 s b rest s' interrupted more => exact more.trans (after interrupted)
  | case5 s b rest fault s' failed => exact after failed
  | case6 s b rest crash s' crashed => exact after crashed

theorem writePieces_view (view : σ → α)
    (write : ∀ bytes s, view (Surroundings.write d bytes s).2 = view s)
    (pieces : List String) (s : σ) : view (writePieces d pieces s).2 = view s := by
  induction pieces generalizing s with
  | nil => rfl
  | cons piece pieces rest =>
    have first := writeAll_view view write (utf8 piece) s
    rw [writePieces]
    generalize writeAll d (utf8 piece) s = written at first
    obtain ⟨delivery, s'⟩ := written
    cases delivery with
    | done => exact (rest s').trans first
    | failed fault => exact first
    | crashed crash => exact first

theorem emit_view (view : σ → α)
    (write : ∀ bytes s, view (Surroundings.write d bytes s).2 = view s)
    (flush : ∀ s, view (Surroundings.flush d s).2 = view s) (pieces : List String) (s : σ) :
    view (emit d pieces s).2 = view s := by
  have written := writePieces_view view write pieces s
  rw [emit]
  generalize writePieces d pieces s = emission at written
  obtain ⟨delivery, s'⟩ := emission
  cases delivery with
  | done => exact (flush s').trans written
  | failed fault => exact written
  | crashed crash => exact written

def Taking (σ : Type) [Surroundings σ κ δ] (d : Option δ) : Prop :=
  ∀ bytes (s : σ), bytes ≠ [] → (Surroundings.write d bytes s).1 = .interrupted ∨
    ∃ n, (Surroundings.write d bytes s).1 = .accepted (n + 1)

theorem Taking.writeAll (taking : Taking σ d) (bytes : List UInt8) (s : σ) :
    (writeAll d bytes s).1 = .done := by
  have answer {b : UInt8} {rest : List UInt8} {reply : WriteReply} {s s' : σ}
      (offer : Surroundings.write d (b :: rest) s = (reply, s')) :
      reply = .interrupted ∨ ∃ n, reply = .accepted (n + 1) := by
    have reply := taking (b :: rest) s (List.cons_ne_nil b rest)
    rwa [offer] at reply
  fun_induction Cadence.writeAll d bytes s with
  | case1 s => rfl
  | case2 s b rest s' nothing => simpa using answer nothing
  | case3 s b rest n s' some more => exact more
  | case4 s b rest s' interrupted more => exact more
  | case5 s b rest fault s' failed => simpa using answer failed
  | case6 s b rest crash s' crashed => simpa using answer crashed

theorem Taking.writePieces (taking : Taking σ d) (pieces : List String) (s : σ) :
    (writePieces d pieces s).1 = .done := by
  induction pieces generalizing s with
  | nil => rfl
  | cons piece pieces rest =>
    have first := taking.writeAll (utf8 piece) s
    rw [Cadence.writePieces]
    generalize Cadence.writeAll d (utf8 piece) s = written at first
    obtain ⟨delivery, s'⟩ := written
    cases first
    exact rest s'

theorem Taking.emit (taking : Taking σ d) (pieces : List String) (s : σ) :
    emit d pieces s = Surroundings.flush d (Cadence.writePieces d pieces s).2 := by
  have written := taking.writePieces pieces s
  rw [Cadence.emit]
  generalize Cadence.writePieces d pieces s = emission at written
  obtain ⟨delivery, s'⟩ := emission
  cases written
  rfl

/-- Such a destination takes a text whole, even if the flush fails or crashes afterwards. -/
theorem Taking.taken_emit {s : Minuted σ κ δ} (taking : Taking (Minuted σ κ δ) d)
    (pieces : List String) :
    taken (Cadence.emit d pieces s).2.minutes =
      taken s.minutes ++ utf8 (String.join pieces) := by
  obtain ⟨offers, minutes, offered⟩ := writePieces_minutes (d := d) (s := s) pieces
  have whole := offered.whole.mpr (taking.writePieces pieces s)
  have flushed : (Surroundings.flush d (Cadence.writePieces d pieces s).2).2.minutes =
      s.minutes ++ offers ++ [.flush d (Surroundings.flush d (Cadence.writePieces d pieces s).2).1] :=
    congrArg (· ++ _) minutes
  rw [taking.emit, flushed, taken_append, taken_append, whole]
  exact List.append_nil _

end

structure Clocks (κ τ : Type) where
  read : κ → τ → Instant × τ

def Clocks.standing : Clocks Unit Instant where
  read _ now := (now, now)

structure Writers (δ ω : Type) where
  write : Option δ → List UInt8 → ω → WriteReply × ω
  flush : Option δ → ω → Delivery × ω
  patience : Option δ → ω → Nat
  patience_write : ∀ d bytes ink, (write d bytes ink).1 = .interrupted →
    patience d (write d bytes ink).2 < patience d ink

structure Writers.Calm {δ ω : Type} (writers : Writers δ ω) : Prop where
  write : ∀ d bytes ink crash, (writers.write d bytes ink).1 ≠ .crashed crash
  flush : ∀ d ink crash, (writers.flush d ink).1 ≠ .crashed crash

structure Parted {κ τ δ ω : Type} (clocks : Clocks κ τ) (writers : Writers δ ω) where
  time : τ
  ink : ω

namespace Parted

variable {κ τ δ ω : Type} {clocks : Clocks κ τ} {writers : Writers δ ω}

instance : Surroundings (Parted clocks writers) κ δ where
  read clock s :=
    ((clocks.read clock s.time).1, { s with time := (clocks.read clock s.time).2 })
  write d bytes s :=
    ((writers.write d bytes s.ink).1, { s with ink := (writers.write d bytes s.ink).2 })
  flush d s := ((writers.flush d s.ink).1, { s with ink := (writers.flush d s.ink).2 })
  log _ s := s
  patience d s := writers.patience d s.ink
  patience_write d bytes s := writers.patience_write d bytes s.ink

end Parted

def Minuted.passing {κ τ δ ω : Type} {clocks : Clocks κ τ} {writers : Writers δ ω}
    (change : τ → τ) : Minuted (Parted clocks writers) κ δ → Minuted (Parted clocks writers) κ δ :=
  Minuted.meanwhile fun s => { s with time := change s.time }

end Cadence
