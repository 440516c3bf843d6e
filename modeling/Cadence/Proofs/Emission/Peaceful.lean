import Cadence.Emission
import Cadence.Session.Rig

namespace Cadence

/-- In calm surroundings no writer at the places crashes, and the surroundings stay calm. -/
structure Peaceful {σ κ δ : Type} [Surroundings σ κ δ] (places : Option δ → Prop)
    (calm : σ → Prop) : Prop where
  write : ∀ {d s} (bytes : List UInt8), places d → calm s →
    (∀ crash, (Surroundings.write d bytes s).1 ≠ .crashed crash) ∧
      calm (Surroundings.write d bytes s).2
  flush : ∀ {d s}, places d → calm s →
    (∀ crash, (Surroundings.flush d s).1 ≠ .crashed crash) ∧ calm (Surroundings.flush d s).2
  read : ∀ {s} clock, calm s → calm (Surroundings.read clock s).2
  log : ∀ {s} e, calm s → calm (Surroundings.log e s)

namespace Peaceful

variable {σ κ δ : Type} [Surroundings σ κ δ] {places : Option δ → Prop} {calm : σ → Prop}
  {d : Option δ} {s s' : σ}

theorem offered (peaceful : Peaceful places calm) (place : places d) (calmly : calm s)
    {bytes : List UInt8} {reply : WriteReply} (offer : Surroundings.write d bytes s = (reply, s')) :
    (∀ crash, reply ≠ .crashed crash) ∧ calm s' := by
  have after := peaceful.write bytes place calmly
  rwa [offer] at after

theorem writeAll (peaceful : Peaceful places calm) (place : places d) (calmly : calm s)
    (bytes : List UInt8) :
    (∀ crash, (writeAll d bytes s).1 ≠ .crashed crash) ∧ calm (Cadence.writeAll d bytes s).2 := by
  fun_induction Cadence.writeAll d bytes s with
  | case1 s => exact ⟨by simp, calmly⟩
  | case2 s b rest s' nothing => exact ⟨by simp, (peaceful.offered place calmly nothing).2⟩
  | case3 s b rest n s' some more => exact more (peaceful.offered place calmly some).2
  | case4 s b rest s' interrupted more => exact more (peaceful.offered place calmly interrupted).2
  | case5 s b rest fault s' failed => exact ⟨by simp, (peaceful.offered place calmly failed).2⟩
  | case6 s b rest crash s' crashed =>
    exact absurd rfl ((peaceful.offered place calmly crashed).1 crash)

theorem writePieces (peaceful : Peaceful places calm) (place : places d) (calmly : calm s)
    (pieces : List String) :
    (∀ crash, (writePieces d pieces s).1 ≠ .crashed crash) ∧
      calm (Cadence.writePieces d pieces s).2 := by
  induction pieces generalizing s with
  | nil => exact ⟨by rintro crash ⟨⟩, calmly⟩
  | cons piece pieces rest =>
    have first := peaceful.writeAll place calmly (utf8 piece)
    rw [Cadence.writePieces]
    generalize Cadence.writeAll d (utf8 piece) s = written at first
    obtain ⟨delivery, s'⟩ := written
    cases delivery with
    | done => exact rest first.2
    | failed fault => exact first
    | crashed crash => exact absurd rfl (first.1 crash)

theorem emit (peaceful : Peaceful places calm) (place : places d) (calmly : calm s)
    (pieces : List String) :
    (∀ crash, (emit d pieces s).1 ≠ .crashed crash) ∧ calm (Cadence.emit d pieces s).2 := by
  have written := peaceful.writePieces place calmly pieces
  rw [Cadence.emit]
  generalize Cadence.writePieces d pieces s = emission at written
  obtain ⟨delivery, s'⟩ := emission
  cases delivery with
  | done => exact peaceful.flush place written.2
  | failed fault => exact written
  | crashed crash => exact absurd rfl (written.1 crash)

end Peaceful

namespace Session

structure Outlet.Calm (o : Outlet) : Prop where
  write : o.faults.refusal ≠ .crashes
  flush : o.faults.flushFailure ≠ some none

namespace Outlet

variable {o : Outlet}

theorem Calm.reply (calm : o.Calm) (bytes : List UInt8) (crash : Crash) :
    o.reply bytes ≠ .crashed crash := by
  have write := calm.write
  rw [Outlet.reply]
  split
  · simp
  · split
    · cases refusal : o.faults.refusal with
      | fails fault => simp
      | takesNothing => simp
      | crashes => exact absurd refusal write
    · simp

theorem Calm.afterReply (calm : o.Calm) (bytes : List UInt8) (reply : WriteReply) :
    (o.afterReply bytes reply).Calm := by
  cases reply <;> exact ⟨calm.write, calm.flush⟩

theorem Calm.flushReply (calm : o.Calm) (crash : Crash) : o.flushReply ≠ .crashed crash := by
  have flush := calm.flush
  rw [Outlet.flushReply]
  rcases failure : o.faults.flushFailure with _ | ⟨_ | fault⟩
  · simp
  · exact absurd failure flush
  · simp

end Outlet

namespace Rig

def Calm (rig : Rig) : Prop := ∀ n, (rig.outlet n).Calm

theorem Calm.modifyOutlet {rig : Rig} (calm : rig.Calm) (n : Nat) {f : Outlet → Outlet}
    (kept : (f (rig.outlet n)).Calm) : (rig.modifyOutlet n f).Calm := by
  intro k
  have here := calm k
  rw [outlet, Array.getD_eq_getD_getElem?] at here ⊢
  rw [Rig.modifyOutlet, Array.getElem?_modify]
  split
  · rename_i same
    subst same
    rw [outlet, Array.getD_eq_getD_getElem?] at kept
    cases found : rig.outlets[n]? with
    | none => exact ⟨by rintro ⟨⟩, by rintro ⟨⟩⟩
    | some o =>
      rw [found] at kept
      exact kept
  · exact here

/-- A session whose pipes fail but do not crash is calm. -/
theorem peaceful : Peaceful (fun _ : Option Nat => True) Calm := by
  constructor
  case write =>
    intro d rig bytes _ calm
    cases d with
    | none => exact ⟨by rintro crash ⟨⟩, calm⟩
    | some n =>
      exact ⟨(calm n).reply bytes, calm.modifyOutlet n ((calm n).afterReply bytes _)⟩
  case flush =>
    intro d rig _ calm
    cases d with
    | none => exact ⟨by rintro crash ⟨⟩, calm⟩
    | some n =>
      exact ⟨(calm n).flushReply, calm.modifyOutlet n ⟨(calm n).write, (calm n).flush⟩⟩
  case read =>
    intro rig clock calm
    cases clock <;> exact calm
  case log => exact fun _ calm => calm

end Rig

end Session

end Cadence
