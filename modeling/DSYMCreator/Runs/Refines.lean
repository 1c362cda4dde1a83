import DSYMCreator.Runs.Exactly

/-!
# Programs that refine partial functions

A program with a state and exceptions refines an optional value when it returns
exactly if there is one, in a state that is related to it. The steps of a program
refine the steps of a computation of optional values.
-/
namespace Runs

variable {ε σ α β γ δ : Type} {p : EStateM ε σ α} {q : α → EStateM ε σ β} {s s' : σ} {a : α}
  {x : Option γ} {v : γ} {f : γ → Option δ} {P : γ → α → σ → Prop} {Q : δ → β → σ → Prop}

/-- Started in `s`, the program returns with the relation if there is a value, and raises if
there is none. -/
structure Refines (p : EStateM ε σ α) (s : σ) (x : Option γ) (P : γ → α → σ → Prop) : Prop where
  returns : ∀ v, x = some v → ∃ a s', p s = .ok a s' ∧ P v a s'
  raises : x = none → ∃ e t, p s = .error e t

theorem refines_some (h : p s = .ok a s') (hP : P v a s') : Refines p s (some v) P where
  returns _ hu := ⟨a, s', h, Option.some.inj hu ▸ hP⟩
  raises hx := nomatch hx

theorem refines_none {e : ε} (h : p s = .error e s') : Refines p s (none : Option γ) P where
  returns _ hv := nomatch hv
  raises _ := ⟨e, s', h⟩

theorem refines_pure (h : P v a s) : Refines (pure a : EStateM ε σ α) s (some v) P :=
  refines_some rfl h

theorem Refines.after {Q : γ → β → σ → Prop} (hp : p s = .ok a s') (hq : Refines (q a) s' x Q) :
    Refines (p >>= q) s x Q where
  returns v hv := by
    rw [bind_of_ok hp]
    exact hq.returns v hv
  raises hx := by
    rw [bind_of_ok hp]
    exact hq.raises hx

theorem Refines.bind (hp : Refines p s x P)
    (hq : ∀ v a s', x = some v → P v a s' → Refines (q a) s' (f v) Q) :
    Refines (p >>= q) s (x >>= f) Q := by
  cases x with
  | none =>
    obtain ⟨e, t, hrun⟩ := hp.raises rfl
    exact refines_none (bind_of_error hrun)
  | some v =>
    obtain ⟨a, s', hrun, ha⟩ := hp.returns v rfl
    exact .after hrun (hq v a s' rfl ha)

/-- Behind the last step comes one that returns in any case. -/
theorem Refines.then_returns {b : α → β} (hp : Refines p s x P) {Q : γ → β → σ → Prop}
    (hQ : ∀ v a s', x = some v → P v a s' → Q v (b a) s') :
    Refines (p >>= fun a => pure (b a)) s x Q := by
  have hbind := hp.bind (f := some) fun v a s' hx ha => refines_pure (hQ v a s' hx ha)
  rwa [Option.bind_eq_bind, Option.bind_fun_some] at hbind

theorem Refines.exists_ok_iff (h : Refines p s x P) :
    (∃ a s', p s = .ok a s') ↔ ∃ v, x = some v := by
  cases x with
  | none =>
    obtain ⟨e, t, herror⟩ := h.raises rfl
    rw [herror]
    simp
  | some v =>
    obtain ⟨a, s', hrun, -⟩ := h.returns v rfl
    rw [hrun]
    simp

theorem Refines.of_ok (h : Refines p s x P) (hrun : p s = .ok a s') :
    ∃ v, x = some v ∧ P v a s' := by
  obtain ⟨v, rfl⟩ := h.exists_ok_iff.mp ⟨a, s', hrun⟩
  obtain ⟨b, t, hrun', hP⟩ := h.returns v rfl
  rw [hrun] at hrun'
  cases hrun'
  exact ⟨v, rfl, hP⟩

end Runs
