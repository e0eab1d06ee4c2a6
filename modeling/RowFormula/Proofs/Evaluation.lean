/-
# Outcomes of computations

Steps that can fail are put together in `Except`, and evaluations are such steps that may
also draw random numbers.  `Evaluation.Returns` relates an evaluation to the values in which
it can end, whatever the draws are.  There is one inversion lemma for each way in which
steps are put together.
-/

import RowFormula.Function

namespace RowFormula

theorem bind_eq_ok_iff {ε α β : Type} {x : Except ε α} {f : α → Except ε β} {b : β} :
    x >>= f = .ok b ↔ ∃ a, x = .ok a ∧ f a = .ok b := by
  cases x <;> simp [bind, Except.bind]

theorem bind_eq_error_iff {ε α β : Type} {x : Except ε α} {f : α → Except ε β} {e : ε} :
    x >>= f = .error e ↔ x = .error e ∨ ∃ a, x = .ok a ∧ f a = .error e := by
  cases x <;> simp [bind, Except.bind]

theorem map_eq_ok_iff {ε α β : Type} {x : Except ε α} {f : α → β} {b : β} :
    x.map f = .ok b ↔ ∃ a, x = .ok a ∧ f a = b := by
  cases x <;> simp [Except.map]

theorem map_eq_error_iff {ε α β : Type} {x : Except ε α} {f : α → β} {e : ε} :
    x.map f = .error e ↔ x = .error e := by
  cases x <;> simp [Except.map]

/-- What is mapped before a step may be mapped after it, if the step allows it. -/
theorem map_bind_eq_map {ε α β γ δ : Type} {x : Except ε α} {f : α → β} {g : β → Except ε δ}
    {h : α → Except ε γ} {k : γ → δ} (hstep : ∀ a, g (f a) = (h a).map k) :
    x.map f >>= g = (x >>= h).map k := by
  cases x with
  | error e => rfl
  | ok a => exact hstep a

theorem toOption_eq_some_iff {ε α : Type} {x : Except ε α} {a : α} :
    x.toOption = some a ↔ x = .ok a := by
  cases x <;> simp [Except.toOption]

namespace Evaluation

variable {ε ε' α β : Type}

/-- Result and draws of an evaluation that starts with some draws. -/
def outcome (x : Evaluation ε α) (draws : Random.Draws) : Except ε α × Random.Draws :=
  x.run.run draws

/-- The evaluation can end with a value. -/
def Returns (x : Evaluation ε α) (a : α) : Prop :=
  ∃ draws, (x.outcome draws).1 = .ok a

theorem outcome_pure (a : α) (draws : Random.Draws) :
    (pure a : Evaluation ε α).outcome draws = (.ok a, draws) := rfl

theorem outcome_throw (e : ε) (draws : Random.Draws) :
    (throw e : Evaluation ε α).outcome draws = (.error e, draws) := rfl

theorem outcome_bind (x : Evaluation ε α) (f : α → Evaluation ε β) (draws : Random.Draws) :
    (x >>= f).outcome draws =
      match x.outcome draws with
      | (.ok a, later) => (f a).outcome later
      | (.error e, later) => (.error e, later) := by
  simp only [outcome, ExceptT.run_bind, StateT.run_bind]
  rcases x.run.run draws with ⟨_ | a, later⟩ <;> rfl

@[simp]
theorem returns_pure {a b : α} : (pure a : Evaluation ε α).Returns b ↔ a = b := by
  simp [Returns, outcome_pure]

@[simp]
theorem not_returns_throw {e : ε} {a : α} : ¬ (throw e : Evaluation ε α).Returns a := by
  simp [Returns, outcome_throw]

theorem Returns.of_bind {x : Evaluation ε α} {f : α → Evaluation ε β} {b : β}
    (h : (x >>= f).Returns b) : ∃ a, x.Returns a ∧ (f a).Returns b := by
  obtain ⟨draws, hdraws⟩ := h
  rw [outcome_bind] at hdraws
  rcases hx : x.outcome draws with ⟨e | a, later⟩
  · simp [hx] at hdraws
  · rw [hx] at hdraws
    exact ⟨a, ⟨draws, by rw [hx]⟩, ⟨later, hdraws⟩⟩

@[simp]
theorem returns_ofOption {e : ε} {x : Option α} {a : α} :
    (ofOption e x).Returns a ↔ x = some a := by
  cases x <;> simp [ofOption]

theorem outcome_mapError (f : ε → ε') (x : Evaluation ε α) (draws : Random.Draws) :
    (x.mapError f).outcome draws = ((x.outcome draws).1.mapError f, (x.outcome draws).2) := rfl

@[simp]
theorem returns_mapError {f : ε → ε'} {x : Evaluation ε α} {a : α} :
    (x.mapError f).Returns a ↔ x.Returns a := by
  simp only [Returns, outcome_mapError]
  refine exists_congr fun draws => ?_
  cases (x.outcome draws).1 with
  | error e => exact ⟨nofun, nofun⟩
  | ok b =>
      constructor
      · intro h
        exact congrArg Except.ok (Except.ok.inj h)
      · intro h
        exact congrArg Except.ok (Except.ok.inj h)

theorem outcome_of_mapError_eq_pure {f : ε → ε'} {x : Evaluation ε α} {a : α}
    (h : x.mapError f = pure a) (draws : Random.Draws) : x.outcome draws = (.ok a, draws) := by
  have houtcome : (x.mapError f).outcome draws = (.ok a, draws) := by
    rw [h, outcome_pure]
  rw [outcome_mapError] at houtcome
  rcases hx : x.outcome draws with ⟨e | b, later⟩
  · rw [hx] at houtcome
    cases houtcome
  · rw [hx] at houtcome
    cases houtcome
    rfl

theorem mapError_mapError {ε₁ ε₂ ε₃ α : Type} (f : ε₁ → ε₂) (g : ε₂ → ε₃)
    (x : Evaluation ε₁ α) : (x.mapError f).mapError g = x.mapError fun e => g (f e) := by
  funext draws
  show ((x.mapError f).mapError g).outcome draws = (x.mapError fun e => g (f e)).outcome draws
  rw [outcome_mapError, outcome_mapError, outcome_mapError]
  cases (x.outcome draws).1 <;> rfl

theorem mapError_id {ε α : Type} (x : Evaluation ε α) : (x.mapError fun e => e) = x := by
  funext draws
  show (x.mapError fun e => e).outcome draws = x.outcome draws
  rw [outcome_mapError]
  rcases x.outcome draws with ⟨_ | a, later⟩ <;> rfl

theorem mapError_bind (f : ε → ε') (x : Evaluation ε α) (g : α → Evaluation ε β) :
    (x >>= g).mapError f = x.mapError f >>= fun a => (g a).mapError f := by
  funext draws
  show ((x >>= g).mapError f).outcome draws =
    (x.mapError f >>= fun a => (g a).mapError f).outcome draws
  rw [outcome_mapError, outcome_bind, outcome_bind, outcome_mapError]
  rcases x.outcome draws with ⟨_ | a, later⟩ <;> rfl

/-- The evaluation can end in a failure. -/
def Fails (x : Evaluation ε α) (e : ε) : Prop :=
  ∃ draws, (x.outcome draws).1 = .error e

/-- The failure in which the evaluation ends when it starts with some draws. -/
def failure? (x : Evaluation ε α) (draws : Random.Draws) : Option ε :=
  match (x.outcome draws).1 with
  | .ok _ => none
  | .error e => some e

theorem fails_of_failure? {x : Evaluation ε α} {draws : Random.Draws} {e : ε}
    (h : x.failure? draws = some e) : x.Fails e := by
  unfold failure? at h
  split at h
  · cases h
  · rename_i e' he
    exact ⟨draws, Option.some.inj h ▸ he⟩

@[simp]
theorem not_fails_pure {a : α} {e : ε} : ¬ (pure a : Evaluation ε α).Fails e := by
  simp [Fails, outcome_pure]

@[simp]
theorem fails_throw {e e' : ε} : (throw e : Evaluation ε α).Fails e' ↔ e = e' := by
  simp [Fails, outcome_throw]

theorem Fails.of_bind {x : Evaluation ε α} {f : α → Evaluation ε β} {e : ε}
    (h : (x >>= f).Fails e) : x.Fails e ∨ ∃ a, x.Returns a ∧ (f a).Fails e := by
  obtain ⟨draws, hdraws⟩ := h
  rw [outcome_bind] at hdraws
  rcases hx : x.outcome draws with ⟨e' | a, later⟩
  · rw [hx] at hdraws
    exact .inl ⟨draws, by rw [hx]; exact congrArg Except.error (Except.error.inj hdraws)⟩
  · rw [hx] at hdraws
    exact .inr ⟨a, ⟨draws, by rw [hx]⟩, ⟨later, hdraws⟩⟩

@[simp]
theorem fails_ofOption {e e' : ε} {x : Option α} :
    (ofOption e x).Fails e' ↔ x = none ∧ e = e' := by
  cases x <;> simp [ofOption]

@[simp]
theorem fails_mapError {f : ε → ε'} {x : Evaluation ε α} {e' : ε'} :
    (x.mapError f).Fails e' ↔ ∃ e, x.Fails e ∧ f e = e' := by
  simp only [Fails, outcome_mapError]
  constructor
  · rintro ⟨draws, hdraws⟩
    cases hx : (x.outcome draws).1 with
    | error e =>
        rw [hx] at hdraws
        exact ⟨e, ⟨draws, hx⟩, Except.error.inj hdraws⟩
    | ok a =>
        rw [hx] at hdraws
        cases hdraws
  · rintro ⟨e, ⟨draws, hx⟩, rfl⟩
    exact ⟨draws, by rw [hx]; rfl⟩

/-- Only the values that can arrive matter to what is done with them. -/
theorem bind_congr_of_returns {x : Evaluation ε α} {f g : α → Evaluation ε β}
    (h : ∀ a, x.Returns a → f a = g a) : x >>= f = x >>= g := by
  funext draws
  show (x >>= f).outcome draws = (x >>= g).outcome draws
  rw [outcome_bind, outcome_bind]
  rcases hx : x.outcome draws with ⟨e | a, later⟩
  · rfl
  · show (f a).outcome later = (g a).outcome later
    rw [h a ⟨draws, by rw [hx]⟩]

/-- Every value in which the evaluation can end meets `P`, and every failure meets `Q`. -/
def Ensures (x : Evaluation ε α) (P : α → Prop) (Q : ε → Prop) : Prop :=
  (∀ a, x.Returns a → P a) ∧ ∀ e, x.Fails e → Q e

namespace Ensures

variable {P P' : α → Prop} {Q Q' : ε → Prop}

theorem pure {a : α} (h : P a) : (Pure.pure a : Evaluation ε α).Ensures P Q :=
  ⟨fun _ hb => returns_pure.1 hb ▸ h, fun _ he => absurd he not_fails_pure⟩

theorem throw {e : ε} (h : Q e) : (MonadExcept.throw e : Evaluation ε α).Ensures P Q :=
  ⟨fun _ ha => absurd ha not_returns_throw, fun _ he => fails_throw.1 he ▸ h⟩

theorem mono {x : Evaluation ε α} (h : x.Ensures P Q) (hP : ∀ a, P a → P' a)
    (hQ : ∀ e, Q e → Q' e) : x.Ensures P' Q' :=
  ⟨fun a ha => hP a (h.1 a ha), fun e he => hQ e (h.2 e he)⟩

theorem bind {R : β → Prop} {x : Evaluation ε α} {f : α → Evaluation ε β}
    (hx : x.Ensures P Q) (hf : ∀ a, P a → (f a).Ensures R Q) : (x >>= f).Ensures R Q := by
  constructor
  · intro b hb
    obtain ⟨a, ha, hb⟩ := hb.of_bind
    exact (hf a (hx.1 a ha)).1 b hb
  · intro e he
    obtain he | ⟨a, ha, he⟩ := he.of_bind
    · exact hx.2 e he
    · exact (hf a (hx.1 a ha)).2 e he

theorem ofOption {e : ε} {x : Option α} (hP : ∀ a, x = some a → P a) (hQ : Q e) :
    (Evaluation.ofOption e x).Ensures P Q :=
  ⟨fun a ha => hP a (returns_ofOption.1 ha), fun _ he => (fails_ofOption.1 he).2 ▸ hQ⟩

end Ensures

end Evaluation

end RowFormula
