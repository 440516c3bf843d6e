import Cadence.Feed.Pulls

namespace Cadence

/-- A consumer of `α` with a `γ` in hand, among surroundings `σ`, that ends with a `β`. -/
inductive Errand (γ σ α β : Type)
  | done (b : β)
  | next (andThen : Option α → Errand γ σ α β)
  | hint (andThen : Hint → Errand γ σ α β)
  | act (deed : γ → σ → Attempt Unit × γ × σ) (andThen : γ → σ → Errand γ σ α β)
  | crash (c : Crash)

inductive Supply (α : Type)
  | item (item : Option α)
  | hint (h : Hint)

def Supply.isItem {α : Type} : Supply α → Bool
  | .item (some _) => true
  | _ => false

namespace Errand

variable {ι σ α β γ θ : Type}

def run [Source ι σ α] : Errand γ σ α β → ι → γ → σ → Attempt β × ι × γ × σ
  | done b, source, g, s => (.ok b, source, g, s)
  | crash c, source, g, s => (.error c, source, g, s)
  | hint f, source, g, s => (f (Source.hint source)).run source g s
  | next f, source, g, s =>
    match Source.next source s with
    | (.ok item, source, s) => (f item).run source g s
    | (.error c, source, s) => (.error c, source, g, s)
  | act deed f, source, g, s =>
    match deed g s with
    | (.ok _, g, s) => (f g s).run source g s
    | (.error c, g, s) => (.error c, source, g, s)

def supplies [Source ι σ α] : Errand γ σ α β → ι → γ → σ → List (Supply α)
  | done _, _, _, _ | crash _, _, _, _ => []
  | hint f, source, g, s =>
    .hint (Source.hint source) :: (f (Source.hint source)).supplies source g s
  | next f, source, g, s =>
    match Source.next source s with
    | (.ok item, source, s) => .item item :: (f item).supplies source g s
    | (.error _, _, _) => []
  | act deed f, source, g, s =>
    match deed g s with
    | (.ok _, g, s) => (f g s).supplies source g s
    | (.error _, _, _) => []

/-- The errand with a `θ` more in hand that counts by it: each item once, directly after it was
pulled and before it is used, and no gap. -/
def counted (count : θ → σ → Attempt Unit × θ × σ) : Errand γ σ α β → Errand (θ × γ) σ α β
  | done b => done b
  | crash c => crash c
  | hint f => hint fun h => (f h).counted count
  | next f => next fun
    | none => (f none).counted count
    | some item =>
      act (fun (t, g) s => ((count t s).1, ((count t s).2.1, g), (count t s).2.2))
        fun _ _ => (f (some item)).counted count
  | act deed f =>
    act (fun (t, g) s => ((deed g s).1, (t, (deed g s).2.1), (deed g s).2.2))
      fun (_, g) s => (f g s).counted count

def Respects (alike : σ → σ → Prop) : Errand γ σ α β → Prop
  | done _ | crash _ => True
  | hint f => ∀ h, (f h).Respects alike
  | next f => ∀ item, (f item).Respects alike
  | act deed f => ∀ g s s', alike s s' →
      (deed g s).1 = (deed g s').1 ∧ (deed g s).2.1 = (deed g s').2.1 ∧
        alike (deed g s).2.2 (deed g s').2.2 ∧ f g s = f g s' ∧ (f g s).Respects alike

def ofPulls : Pulls α β → Errand Unit σ α β
  | .done b => done b
  | .crash c => crash c
  | .hint f => hint fun h => ofPulls (f h)
  | .next f => next fun item => ofPulls (f item)

theorem run_ofPulls [Source ι σ α] (p : Pulls α β) (source : ι) (s : σ) :
    (ofPulls p).run source () s =
      ((p.run source s).1, (p.run source s).2.1, (), (p.run source s).2.2) := by
  induction p generalizing source s with
  | done b => rfl
  | crash c => rfl
  | hint f rest => exact rest _ source s
  | next f rest =>
    rw [ofPulls, run, Pulls.run]
    generalize Source.next source s = answer
    obtain ⟨result, source', s'⟩ := answer
    cases result with
    | error c => rfl
    | ok item => exact rest item source' s'

theorem ofPulls_respects (p : Pulls α β) (alike : σ → σ → Prop) :
    (ofPulls p : Errand Unit σ α β).Respects alike := by
  induction p with
  | done b => exact True.intro
  | crash c => exact True.intro
  | hint f rest => exact rest
  | next f rest => exact rest

end Errand

def Source.Respects (ι : Type) {σ α : Type} [Source ι σ α] (alike : σ → σ → Prop) : Prop :=
  ∀ (source : ι) (s s' : σ), alike s s' →
    (Source.next source s).1 = (Source.next source s').1 ∧
      (Source.next source s).2.1 = (Source.next source s').2.1 ∧
      alike (Source.next source s).2.2 (Source.next source s').2.2

end Cadence
