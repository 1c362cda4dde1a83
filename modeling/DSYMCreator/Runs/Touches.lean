import DSYMCreator.Runs.Exactly
import Mathlib.Data.Set.Basic

/-!
# What a program leaves alone

The state has cells, such as the files of a file system. A program touches some of
them at most, whether it returns or raises; the others are as they were.
-/
namespace Runs

variable {ε σ α β ι κ : Type}

/-- The state in which the program ends, in either way. -/
def endState (p : EStateM ε σ α) (s : σ) : σ :=
  match p s with
  | .ok _ s' => s'
  | .error _ s' => s'

theorem endState_of_ok {p : EStateM ε σ α} {s s' : σ} {a : α} (h : p s = .ok a s') :
    endState p s = s' := by
  rw [endState, h]

theorem endState_of_error {p : EStateM ε σ α} {s s' : σ} {e : ε} (h : p s = .error e s') :
    endState p s = s' := by
  rw [endState, h]

/-- Started anywhere, the program changes no cell outside of `cells`. -/
def Touches (view : σ → ι → κ) (cells : Set ι) (p : EStateM ε σ α) : Prop :=
  ∀ s, ∀ i ∉ cells, view (endState p s) i = view s i

variable {view : σ → ι → κ} {cells : Set ι} {p : EStateM ε σ α} {q : α → EStateM ε σ β} {a : α}

theorem touches_pure (a : α) : Touches view cells (pure a : EStateM ε σ α) := fun _ _ _ => rfl

theorem touches_throw (e : ε) : Touches view cells (throw e : EStateM ε σ α) := fun _ _ _ => rfl

theorem touches_get : Touches view cells (get : EStateM ε σ σ) := fun _ _ _ => rfl

theorem touches_modify {f : σ → σ} (h : ∀ s, ∀ i ∉ cells, view (f s) i = view s i) :
    Touches view cells (modify f : EStateM ε σ Unit) := h

theorem touches_modifyGet {f : σ → α × σ} (h : ∀ s, ∀ i ∉ cells, view (f s).2 i = view s i) :
    Touches view cells (modifyGet f : EStateM ε σ α) := h

/-- Every value that the program returns has the property. -/
def Returns (p : EStateM ε σ α) (R : α → Prop) : Prop := ∀ s a s', p s = .ok a s' → R a

theorem returns_pure {R : α → Prop} (h : R a) : Returns (pure a : EStateM ε σ α) R := by
  intro s b s' hrun
  cases hrun
  exact h

theorem returns_throw {R : α → Prop} (e : ε) : Returns (throw e : EStateM ε σ α) R :=
  fun _ _ _ hrun => nomatch hrun

theorem returns_bind {R : β → Prop} (hq : ∀ a, Returns (q a) R) : Returns (p >>= q) R := by
  intro s b s' hrun
  cases h : p s with
  | ok a t =>
    rw [bind_of_ok h] at hrun
    exact hq a t b s' hrun
  | error e t =>
    rw [bind_of_error h] at hrun
    cases hrun

theorem Returns.ite {R : α → Prop} {c : Prop} [Decidable c] {p' : EStateM ε σ α}
    (hp : Returns p R) (hp' : Returns p' R) : Returns (if c then p else p') R := by
  split_ifs
  · exact hp
  · exact hp'

theorem Touches.mono {cells' : Set ι} (h : Touches view cells p) (hsub : cells ⊆ cells') :
    Touches view cells' p := fun s i hi => h s i fun hmem => hi (hsub hmem)

/-- What follows has to be considered for the values only that come. -/
theorem Touches.bind_returns {R : α → Prop} (hp : Touches view cells p) (hR : Returns p R)
    (hq : ∀ a, R a → Touches view cells (q a)) : Touches view cells (p >>= q) := by
  intro s i hi
  have hfirst := hp s i hi
  cases h : p s with
  | ok a s' =>
    rw [endState_of_ok h] at hfirst
    rw [← hfirst, ← hq a (hR s a s' h) s' i hi, endState, endState, bind_of_ok h]
  | error e s' =>
    rw [endState_of_error h] at hfirst
    rw [← hfirst, endState_of_error (bind_of_error h)]

theorem Touches.bind (hp : Touches view cells p) (hq : ∀ a, Touches view cells (q a)) :
    Touches view cells (p >>= q) :=
  hp.bind_returns (R := fun _ => True) (fun _ _ _ _ => trivial) fun a _ => hq a

theorem Touches.ite {c : Prop} [Decidable c] {p' : EStateM ε σ α} (hp : Touches view cells p)
    (hp' : Touches view cells p') : Touches view cells (if c then p else p') := by
  split_ifs
  · exact hp
  · exact hp'

/-- Runs of programs that leave a cell alone, one after the other. -/
theorem view_foldl {ρ : Type} {program : ρ → EStateM ε σ α} {i : ι} {rs : List ρ}
    (h : ∀ r ∈ rs, ∃ cells, Touches view cells (program r) ∧ i ∉ cells) (s : σ) :
    view (rs.foldl (fun s r => endState (program r) s) s) i = view s i := by
  induction rs generalizing s with
  | nil => rfl
  | cons r rs ih =>
    obtain ⟨cells, htouches, hi⟩ := h r List.mem_cons_self
    rw [List.foldl_cons, ih fun r hr => h r (List.mem_cons_of_mem _ hr)]
    exact htouches s i hi

/-! ## Programs that raise -/

/-- When the program raises, it has changed no cell outside of `cells`. -/
def RaisesWithin (view : σ → ι → κ) (cells : Set ι) (p : EStateM ε σ α) : Prop :=
  ∀ s e s', p s = .error e s' → ∀ i ∉ cells, view s' i = view s i

theorem Touches.raisesWithin (h : Touches view cells p) : RaisesWithin view cells p := by
  intro s e s' hrun i hi
  rw [← h s i hi, endState_of_error hrun]

theorem raisesWithin_bind {R : α → Prop} (hp : Touches view cells p) (hR : Returns p R)
    (hq : ∀ a, R a → RaisesWithin view cells (q a)) : RaisesWithin view cells (p >>= q) := by
  intro s e s' hrun i hi
  cases h : p s with
  | ok a t =>
    have hfirst := hp s i hi
    rw [endState_of_ok h] at hfirst
    rw [bind_of_ok h] at hrun
    rw [hq a (hR s a t h) t e s' hrun i hi, hfirst]
  | error e' t =>
    rw [bind_of_error h] at hrun
    cases hrun
    exact hp.raisesWithin s e s' h i hi

theorem Touches.bind_raisesWithin (hp : Touches view cells p)
    (hq : ∀ a, RaisesWithin view cells (q a)) : RaisesWithin view cells (p >>= q) :=
  raisesWithin_bind (R := fun _ => True) hp (fun _ _ _ _ => trivial) fun a _ => hq a

theorem RaisesWithin.bind_pure {b : α → β} (hp : RaisesWithin view cells p) :
    RaisesWithin view cells (p >>= fun a => pure (b a)) := by
  intro s e s' hrun
  cases h : p s with
  | ok a t =>
    rw [bind_of_ok h] at hrun
    cases hrun
  | error e' t =>
    rw [bind_of_error h] at hrun
    cases hrun
    exact hp s e s' h

end Runs
