import Mathlib.Logic.Basic

/-!
# Programs that return exactly under a condition

A program with a state and exceptions, started in one state, either returns or
raises. `Exactly` says under which condition it returns, with which value and in
which state, and that it raises otherwise. The rules follow the program.
-/
namespace Runs

variable {ε σ α β : Type} {p : EStateM ε σ α} {q : α → EStateM ε σ β} {s s' s'' : σ} {a : α} {b : β}
  {c d : Prop}

/-- Started in `s`, the program returns `a` in `s'` if `c` holds, and raises if not. -/
structure Exactly (p : EStateM ε σ α) (s : σ) (c : Prop) (a : α) (s' : σ) : Prop where
  returns : c → p s = .ok a s'
  raises : ¬ c → ∃ e t, p s = .error e t

/-- The end state matters under the condition only. -/
theorem Exactly.of_eq {a' : α} {t : σ} (h : Exactly p s c a s') (hcd : c ↔ d)
    (heq : d → a = a' ∧ s' = t) : Exactly p s d a' t := by
  constructor
  · intro hd
    obtain ⟨rfl, rfl⟩ := heq hd
    exact h.returns (hcd.mpr hd)
  · intro hd
    exact h.raises fun hc => hd (hcd.mp hc)

theorem Exactly.cond_iff (h : Exactly p s c a s') (hcd : c ↔ d) : Exactly p s d a s' :=
  h.of_eq hcd fun _ => ⟨rfl, rfl⟩

theorem bind_of_ok (h : p s = .ok a s') : (p >>= q) s = q a s' := by
  change EStateM.bind p q s = _
  unfold EStateM.bind
  rw [h]

theorem bind_of_error {e : ε} (h : p s = .error e s') : (p >>= q) s = .error e s' := by
  change EStateM.bind p q s = _
  unfold EStateM.bind
  rw [h]

theorem get_bind (q : σ → EStateM ε σ α) (s : σ) : (get >>= q) s = q s s := rfl

theorem modifyGet_bind (f : σ → α × σ) (q : α → EStateM ε σ β) (s : σ) :
    (modifyGet f >>= q) s = q (f s).1 (f s).2 := rfl

theorem modify_bind (f : σ → σ) (q : Unit → EStateM ε σ α) (s : σ) :
    (modify f >>= q) s = q () (f s) := rfl

theorem tryCatch_of_ok {handler : ε → EStateM ε σ α} (h : p s = .ok a s') :
    (tryCatch p handler : EStateM ε σ α) s = .ok a s' := by
  change EStateM.tryCatch p handler s = _
  unfold EStateM.tryCatch
  rw [h]

/-- A handler goes on in the state in which the exception was raised. -/
theorem tryCatch_of_error {handler : ε → EStateM ε σ α} {e : ε} (h : p s = .error e s') :
    (tryCatch p handler : EStateM ε σ α) s = handler e s' := by
  change EStateM.tryCatch p handler s = _
  unfold EStateM.tryCatch
  rw [h]
  rfl

/-- What follows a step starts where the step ends, and only if it returned. -/
theorem Exactly.bind (hp : Exactly p s c a s') (hq : c → Exactly (q a) s' d b s'') :
    Exactly (p >>= q) s (c ∧ d) b s'' := by
  constructor
  · rintro ⟨hc, hd⟩
    rw [bind_of_ok (hp.returns hc)]
    exact (hq hc).returns hd
  · intro hnot
    by_cases hc : c
    · rw [bind_of_ok (hp.returns hc)]
      exact (hq hc).raises fun hd => hnot ⟨hc, hd⟩
    · obtain ⟨e, t, h⟩ := hp.raises hc
      exact ⟨e, t, bind_of_error h⟩

theorem exactly_pure (a : α) (s : σ) : Exactly (pure a : EStateM ε σ α) s True a s :=
  ⟨fun _ => rfl, fun h => absurd trivial h⟩

theorem exactly_get (s : σ) : Exactly (get : EStateM ε σ σ) s True s s :=
  ⟨fun _ => rfl, fun h => absurd trivial h⟩

theorem exactly_set (s s' : σ) : Exactly (set s' : EStateM ε σ Unit) s True () s' :=
  ⟨fun _ => rfl, fun h => absurd trivial h⟩

theorem exactly_modify (f : σ → σ) (s : σ) :
    Exactly (modify f : EStateM ε σ Unit) s True () (f s) :=
  ⟨fun _ => rfl, fun h => absurd trivial h⟩

theorem exactly_throw (e : ε) (s : σ) (a : α) (s' : σ) :
    Exactly (throw e : EStateM ε σ α) s False a s' :=
  ⟨fun h => h.elim, fun _ => ⟨e, s, rfl⟩⟩

theorem Exactly.guarded [Decidable d] (hp : Exactly p s c a s') (e : ε) :
    Exactly (if d then p else throw e) s (d ∧ c) a s' := by
  by_cases hd : d
  · rw [if_pos hd]
    exact hp.cond_iff (by simp [hd])
  · rw [if_neg hd]
    exact (exactly_throw e s a s').cond_iff (by simp [hd])

theorem exactly_check [Decidable d] (e : ε) (s : σ) :
    Exactly (if d then throw e else pure () : EStateM ε σ Unit) s (¬ d) () s := by
  by_cases hd : d
  · rw [if_pos hd]
    exact (exactly_throw e s () s).cond_iff (by simp [hd])
  · rw [if_neg hd]
    exact (exactly_pure () s).cond_iff (by simp [hd])

end Runs
