import Cadence.Proofs.Feed.Errand

namespace Cadence

variable {ι ι' σ α β γ θ ρ : Type}

structure Counts [Source ι σ α] [Source ι' σ α] (join : ι → θ → ι')
    (count : θ → σ → Attempt Unit × θ × σ) : Prop where
  next : ∀ source t s, Source.next (join source t) s =
    match Source.next source s with
    | (.ok (some item), source, s) =>
      match count t s with
      | (.ok _, t, s) => (.ok (some item), join source t, s)
      | (.error c, t, s) => (.error c, join source t, s)
    | (.ok none, source, s) => (.ok none, join source t, s)
    | (.error c, source, s) => (.error c, join source t, s)
  hint : ∀ source t, Source.hint (join source t) = Source.hint source

namespace Counts

variable [Source ι σ α] [Source ι' σ α] {join : ι → θ → ι'}
  {count : θ → σ → Attempt Unit × θ × σ}

/-- An errand on the joined source comes to what it does on the bare one, counting by hand. -/
theorem run (counts : Counts join count) (e : Errand γ σ α β) (source : ι) (t : θ) (g : γ) (s : σ) :
    let byHand := (e.counted count).run source (t, g) s
    e.run (join source t) g s =
      (byHand.1, join byHand.2.1 byHand.2.2.1.1, byHand.2.2.1.2, byHand.2.2.2) := by
  induction e generalizing source t g s with
  | done b => rfl
  | crash c => rfl
  | hint f rest =>
    rw [Errand.run, counts.hint]
    exact rest _ source t g s
  | act deed f rest =>
    simp only [Errand.counted, Errand.run]
    generalize deed g s = done
    obtain ⟨result, g', s'⟩ := done
    cases result with
    | error c => rfl
    | ok a => exact rest g' s' source t g' s'
  | next f rest =>
    simp only [Errand.counted, Errand.run, counts.next]
    generalize Source.next source s = answer
    obtain ⟨result, source', s'⟩ := answer
    rcases result with c | _ | item
    · rfl
    · exact rest none source' t g s'
    · simp only [Errand.run]
      generalize count t s' = counted
      obtain ⟨result, t', s''⟩ := counted
      cases result with
      | error c => rfl
      | ok a => exact rest (some item) source' t' g s''

/-- The count by hand grows by the items supplied through the join. -/
theorem supplied (counts : Counts join count) (size : θ → Nat)
    (grows : ∀ {t t' s s' a}, count t s = (.ok a, t', s') → size t' = size t + 1)
    (e : Errand γ σ α β) (source : ι) (t : θ) (g : γ) (s : σ) {b : β}
    (ended : ((e.counted count).run source (t, g) s).1 = .ok b) :
    size ((e.counted count).run source (t, g) s).2.2.1.1 =
      size t + (e.supplies (join source t) g s).countP Supply.isItem := by
  induction e generalizing source t g s with
  | done b => rfl
  | crash c => cases ended
  | hint f rest =>
    have hinted := rest _ source t g s ended
    rw [Errand.supplies, counts.hint, List.countP_cons_of_neg (Bool.false_ne_true)]
    exact hinted
  | act deed f rest =>
    simp only [Errand.counted, Errand.run, Errand.supplies] at ended ⊢
    generalize deed g s = done at ended ⊢
    obtain ⟨result, g', s'⟩ := done
    cases result with
    | error c => cases ended
    | ok a => exact rest g' s' source t g' s' ended
  | next f rest =>
    simp only [Errand.counted, Errand.run, Errand.supplies, counts.next] at ended ⊢
    generalize Source.next source s = answer at ended ⊢
    obtain ⟨result, source', s'⟩ := answer
    rcases result with c | _ | item
    · cases ended
    · have onward := rest none source' t g s' ended
      simp only
      rw [List.countP_cons_of_neg (Bool.false_ne_true)]
      exact onward
    · simp only [Errand.run] at ended ⊢
      generalize counted : count t s' = done at ended ⊢
      obtain ⟨result, t', s''⟩ := done
      cases result with
      | error c => cases ended
      | ok a =>
        have onward := rest (some item) source' t' g s'' ended
        simp only
        rw [List.countP_cons_of_pos rfl, onward, grows counted]
        omega

/-- If the counting does not show, the joined source supplies what the bare one does, up to the
first count that crashes. -/
theorem as_bare (counts : Counts join count) {alike : σ → σ → Prop}
    (respects : Source.Respects ι alike) (able : θ → Prop)
    (unseen : ∀ t s s', able t →
      able (count t s).2.1 ∧ (alike (count t s).2.2 s' ↔ alike s s'))
    (e : Errand γ σ α β) (respectful : e.Respects alike) (source : ι) (t : θ) (g : γ) (s s' : σ)
    (fit : able t) (same : alike s s') :
    let joined := e.run (join source t) g s
    let bare := e.run source g s'
    e.supplies (join source t) g s <+: e.supplies source g s' ∧
      ((∃ t s c, (count t s).1 = .error c ∧ joined.1 = .error c) ∨
        e.supplies (join source t) g s = e.supplies source g s' ∧ joined.1 = bare.1 ∧
          (∃ t, joined.2.1 = join bare.2.1 t) ∧ joined.2.2.1 = bare.2.2.1 ∧
          alike joined.2.2.2 bare.2.2.2) := by
  induction e generalizing source t g s s' with
  | done b => exact ⟨List.prefix_rfl, .inr ⟨rfl, rfl, ⟨t, rfl⟩, rfl, same⟩⟩
  | crash c => exact ⟨List.prefix_rfl, .inr ⟨rfl, rfl, ⟨t, rfl⟩, rfl, same⟩⟩
  | hint f rest =>
    simp only [Errand.run, Errand.supplies, counts.hint, List.cons_prefix_cons, true_and,
      List.cons.injEq]
    exact rest _ (respectful _) source t g s s' fit same
  | act deed f rest =>
    obtain ⟨result, hand, alike', _⟩ := respectful g s s' same
    simp only [Errand.run, Errand.supplies]
    generalize deed g s = done, deed g s' = done' at result hand alike' ⊢
    obtain ⟨r, g₁, s₁⟩ := done
    obtain ⟨r', g₁', s₁'⟩ := done'
    simp only at result hand alike'
    subst result hand
    -- how the errand goes on is chosen in the surroundings after the deed
    obtain ⟨_, _, _, onward, still⟩ := respectful g₁ s₁ s₁' alike'
    cases r with
    | error c => exact ⟨List.prefix_rfl, .inr ⟨rfl, rfl, ⟨t, rfl⟩, rfl, alike'⟩⟩
    | ok a =>
      simp only [← onward]
      exact rest g₁ s₁ still source t g₁ s₁ s₁' fit alike'
  | next f rest =>
    obtain ⟨result, onward, alike'⟩ := respects source s s' same
    simp only [Errand.run, Errand.supplies, counts.next]
    generalize Source.next source s = answer, Source.next source s' = answer'
      at result onward alike' ⊢
    obtain ⟨r, source₁, s₁⟩ := answer
    obtain ⟨r', source₁', s₁'⟩ := answer'
    simp only at result onward alike'
    subst result onward
    rcases r with c | _ | item
    · exact ⟨List.prefix_rfl, .inr ⟨rfl, rfl, ⟨t, rfl⟩, rfl, alike'⟩⟩
    · simp only [List.cons_prefix_cons, true_and, List.cons.injEq]
      exact rest none (respectful none) source₁ t g s₁ s₁' fit alike'
    · obtain ⟨still, seen⟩ := unseen t s₁ s₁' fit
      simp only
      generalize counted : count t s₁ = done at still seen ⊢
      obtain ⟨result, t', s₂⟩ := done
      cases result with
      | error c => exact ⟨List.nil_prefix, .inl ⟨t, s₁, c, by rw [counted], rfl⟩⟩
      | ok a =>
        simp only [List.cons_prefix_cons, true_and, List.cons.injEq]
        exact rest (some item) (respectful _) source₁ t' g s₂ s₁' still (seen.mpr alike')

end Counts

/-- A record of what is counted by hand that no count changes is as it was at the end. -/
theorem Errand.counted_keep [Source ι σ α] {count : θ → σ → Attempt Unit × θ × σ} (keep : θ → ρ)
    (kept : ∀ t s, keep (count t s).2.1 = keep t) (e : Errand γ σ α β) (source : ι) (t : θ) (g : γ)
    (s : σ) : keep ((e.counted count).run source (t, g) s).2.2.1.1 = keep t := by
  induction e generalizing source t g s with
  | done b => rfl
  | crash c => rfl
  | hint f rest => exact rest _ source t g s
  | act deed f rest =>
    simp only [Errand.counted, Errand.run]
    generalize deed g s = done
    obtain ⟨result, g', s'⟩ := done
    cases result with
    | error c => rfl
    | ok a => exact rest g' s' source t g' s'
  | next f rest =>
    simp only [Errand.counted, Errand.run]
    generalize Source.next source s = answer
    obtain ⟨result, source', s'⟩ := answer
    rcases result with c | _ | item
    · rfl
    · exact rest none source' t g s'
    · have still := kept t s'
      simp only [Errand.run]
      generalize count t s' = done at still ⊢
      obtain ⟨result, t', s''⟩ := done
      cases result with
      | error c => exact still
      | ok a => exact (rest (some item) source' t' g s'').trans still

end Cadence
