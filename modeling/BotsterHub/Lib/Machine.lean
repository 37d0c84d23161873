import Mathlib.Data.List.Basic

/-!
Machines whose steps can fail: `step : σ → α → Option σ`. A run is the monadic fold over its
inputs. The rules prove that a run does not fail together with what it keeps.
-/

namespace Machine

variable {σ α : Type*} {step : σ → α → Option σ}

theorem guarded {P : σ → Prop} {c : Prop} [Decidable c] {s s' : σ} (h : P s) (hs : c → P s') :
    P (if c then s' else s) := by
  split
  · next hc => exact hs hc
  · exact h

/-- A run under an invariant that may depend on the inputs still to come. -/
theorem run_rest {I : List α → σ → Prop}
    (hstep : ∀ a as s, I (a :: as) s → ∃ s', step s a = some s' ∧ I as s') (as : List α) (s : σ)
    (h : I as s) : ∃ s', as.foldlM step s = some s' ∧ I [] s' := by
  induction as generalizing s with
  | nil => exact ⟨s, rfl, h⟩
  | cons a as ih =>
    obtain ⟨s₁, hs₁, h₁⟩ := hstep a as s h
    obtain ⟨s', hs', h'⟩ := ih s₁ h₁
    exact ⟨s', by rw [List.foldlM_cons, hs₁]; exact hs', h'⟩

theorem run_rel {R : σ → σ → Prop} (hr : ∀ s, R s s) (ht : ∀ s s' s'', R s s' → R s' s'' → R s s'')
    (hstep : ∀ s a s', step s a = some s' → R s s') {as : List α} {s s' : σ}
    (h : as.foldlM step s = some s') : R s s' := by
  induction as generalizing s with
  | nil =>
    obtain rfl := Option.some.inj h
    exact hr s
  | cons a as ih =>
    rw [List.foldlM_cons] at h
    obtain ⟨s₁, hs₁, hrest⟩ := Option.bind_eq_some_iff.mp h
    exact ht s s₁ s' (hstep s a s₁ hs₁) (ih hrest)

/-- Every step of the run from `s` meets `guard` in the state it starts from. -/
def Along (step : σ → α → Option σ) (guard : σ → α → Prop) : σ → List α → Prop
  | _, [] => True
  | s, a :: as => guard s a ∧ ∀ s', step s a = some s' → Along step guard s' as

variable {guard : σ → α → Prop}

theorem run_along {I : σ → Prop} (hstep : ∀ s a s', I s → guard s a → step s a = some s' → I s')
    {as : List α} {s s' : σ} (ha : Along step guard s as) (h : I s)
    (hr : as.foldlM step s = some s') : I s' := by
  induction as generalizing s with
  | nil =>
    cases hr
    exact h
  | cons a as ih =>
    rw [List.foldlM_cons] at hr
    obtain ⟨s₁, hs₁, hrest⟩ := Option.bind_eq_some_iff.mp hr
    exact ih (ha.2 s₁ hs₁) (hstep s a s₁ h ha.1 hs₁) hrest

instance [∀ s a, Decidable (guard s a)] : ∀ s as, Decidable (Along step guard s as)
  | _, [] => isTrue trivial
  | s, a :: as =>
    match h : step s a with
    | none => decidable_of_iff (guard s a) (by simp [Along, h])
    | some s' =>
      have := instDecidableAlong s' as
      decidable_of_iff (guard s a ∧ Along step guard s' as) (by simp [Along, h])

end Machine
