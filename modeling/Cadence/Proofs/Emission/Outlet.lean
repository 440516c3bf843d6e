import Cadence.Emission
import Cadence.Proofs.Text.Lossy
import Cadence.Session.Rig

namespace Cadence.Session

structure OutletAt {σ κ δ : Type} [Surroundings σ κ δ] (d : δ) (outlet? : σ → Option Outlet) :
    Prop where
  write : ∀ {o s} (bytes : List UInt8), outlet? s = some o →
    (Surroundings.write (some d) bytes s).1 = o.reply bytes ∧
      outlet? (Surroundings.write (some d) bytes s).2 = some (o.afterReply bytes (o.reply bytes))
  flush : ∀ {o s}, outlet? s = some o →
    (Surroundings.flush (some d) s).1 = o.flushReply ∧
      outlet? (Surroundings.flush (some d) s).2 = some o.afterFlush
  read : ∀ clock s, outlet? (Surroundings.read clock s).2 = outlet? s
  log : ∀ e s, outlet? (Surroundings.log e s) = outlet? s

namespace Rig

theorem outletAt (n : Nat) : OutletAt n fun rig : Rig => rig.outlets[n]? := by
  have found {rig : Rig} {o : Outlet} (here : rig.outlets[n]? = some o) : rig.outlet n = o := by
    rw [outlet, Array.getD_eq_getD_getElem?, here, Option.getD_some]
  constructor
  case write =>
    intro o rig bytes here
    refine ⟨congrArg (Outlet.reply · bytes) (found here), ?_⟩
    simp only [Surroundings.write, write, modifyOutlet, found here]
    rw [Array.getElem?_modify, if_pos rfl, here, Option.map_some]
  case flush =>
    intro o rig here
    refine ⟨congrArg Outlet.flushReply (found here), ?_⟩
    simp only [Surroundings.flush, flush, modifyOutlet]
    rw [Array.getElem?_modify, if_pos rfl, here, Option.map_some]
  case read =>
    intro clock rig
    cases clock <;> rfl
  case log => exact fun _ _ => rfl

end Rig

def Outlet.afterWhole? (o : Outlet) (piece : String) : Option Outlet :=
  match utf8 piece with
  | [] => some o
  | b :: rest =>
    if o.reply (b :: rest) = .accepted (b :: rest).length then
      some (o.afterReply (b :: rest) (.accepted (b :: rest).length))
    else none

namespace Outlet

theorem afterWhole?_healthy {o : Outlet} (healthy : o.faults = .none) (piece : String) :
    o.afterWhole? piece = some (o.append (utf8 piece)) := by
  rw [afterWhole?, append]
  cases utf8 piece with
  | nil => simp
  | cons b rest =>
    have whole : o.reply (b :: rest) = .accepted (b :: rest).length := by
      simp [reply, healthy, Faults.none]
    have limit : { o.faults with limit := o.faults.limit.map (· - (b :: rest).length) } =
        o.faults := by
      rw [healthy]
      rfl
    simp only [whole, if_pos, afterReply, limit, List.take_length]

theorem afterWhole?_pieces_healthy {o : Outlet} (healthy : o.faults = .none)
    (pieces : List String) :
    pieces.foldlM afterWhole? o = some (o.append (utf8 (String.join pieces))) := by
  induction pieces generalizing o with
  | nil => simp [append, utf8]
  | cons piece pieces rest =>
    have kept : (o.append (utf8 piece)).faults = .none := healthy
    rw [List.foldlM_cons, afterWhole?_healthy healthy, String.join_cons, utf8_append]
    refine (rest kept).trans ?_
    simp [append]

end Outlet

variable {σ κ δ : Type} [Surroundings σ κ δ] {d : δ} {outlet? : σ → Option Outlet}

namespace OutletAt

theorem writeAll_whole (place : OutletAt d outlet?) {o : Outlet} {s : σ} (b : UInt8)
    (rest : List UInt8) (here : outlet? s = some o)
    (whole : o.reply (b :: rest) = .accepted (b :: rest).length) :
    (writeAll (some d) (b :: rest) s).1 = .done ∧
      outlet? (writeAll (some d) (b :: rest) s).2 =
        some (o.afterReply (b :: rest) (.accepted (b :: rest).length)) := by
  obtain ⟨reply, after⟩ := place.write (b :: rest) here
  rw [whole] at reply after
  rw [writeAll_cons]
  generalize Surroundings.write (some d) (b :: rest) s = offer at reply after
  obtain ⟨answer, s'⟩ := offer
  simp only at reply after
  subst reply
  simp only [List.length_cons, List.drop_length, writeAll_nil, true_and]
  exact after

theorem writePieces_whole (place : OutletAt d outlet?) (pieces : List String) {o o' : Outlet}
    {s : σ} (here : outlet? s = some o) (whole : pieces.foldlM Outlet.afterWhole? o = some o') :
    (writePieces (some d) pieces s).1 = .done ∧
      outlet? (writePieces (some d) pieces s).2 = some o' := by
  induction pieces generalizing o s with
  | nil =>
    cases whole
    exact ⟨rfl, here⟩
  | cons piece pieces rest =>
    obtain ⟨o₁, first, others⟩ := Option.bind_eq_some_iff.mp whole
    have written : (writeAll (some d) (utf8 piece) s).1 = .done ∧
        outlet? (writeAll (some d) (utf8 piece) s).2 = some o₁ := by
      simp only [Outlet.afterWhole?] at first
      cases bytes : utf8 piece with
      | nil =>
        rw [bytes] at first
        cases first
        rw [writeAll_nil]
        exact ⟨rfl, here⟩
      | cons b bs =>
        rw [bytes] at first
        simp only [Option.ite_none_right_eq_some, Option.some.injEq] at first
        rw [← first.2]
        exact place.writeAll_whole b bs here first.1
    simp only [writePieces]
    generalize writeAll (some d) (utf8 piece) s = offer at written
    obtain ⟨delivery, s'⟩ := offer
    obtain ⟨rfl, after⟩ := written
    exact rest after others

theorem emit_whole (place : OutletAt d outlet?) (pieces : List String) {o o' : Outlet} {s : σ}
    (here : outlet? s = some o) (whole : pieces.foldlM Outlet.afterWhole? o = some o') :
    (emit (some d) pieces s).1 = o'.flushReply ∧
      outlet? (emit (some d) pieces s).2 = some o'.afterFlush := by
  obtain ⟨done, after⟩ := place.writePieces_whole pieces here whole
  rw [emit]
  generalize writePieces (some d) pieces s = written at done after
  obtain ⟨delivery, s'⟩ := written
  simp only at done after
  subst done
  exact place.flush after

theorem emit_healthy (place : OutletAt d outlet?) (pieces : List String) {o : Outlet} {s : σ}
    (here : outlet? s = some o) (healthy : o.faults = .none) :
    (emit (some d) pieces s).1 = .done ∧
      outlet? (emit (some d) pieces s).2 =
        some (o.append (utf8 (String.join pieces))).afterFlush := by
  have flushed : (o.append (utf8 (String.join pieces))).flushReply = .done := by
    simp [Outlet.flushReply, Outlet.append, healthy, Faults.none]
  rw [← flushed]
  exact place.emit_whole pieces here (Outlet.afterWhole?_pieces_healthy healthy pieces)

theorem emit_crashed (place : OutletAt d outlet?) {piece : String} (pieces : List String)
    {o : Outlet} {s : σ} {b : UInt8} {rest : List UInt8} {crash : Crash}
    (bytes : utf8 piece = b :: rest) (here : outlet? s = some o)
    (refused : o.reply (b :: rest) = .crashed crash) :
    (emit (some d) (piece :: pieces) s).1 = .crashed crash := by
  have reply := (place.write (b :: rest) here).1
  rw [refused] at reply
  rw [emit, writePieces, bytes, writeAll_cons]
  generalize Surroundings.write (some d) (b :: rest) s = offer at reply
  obtain ⟨answer, s'⟩ := offer
  subst reply
  rfl

end OutletAt

end Cadence.Session
