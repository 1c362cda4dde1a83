import Mathlib.Order.Basic
import Mathlib.Data.List.Basic
import Mathlib.Tactic

/-!
# Elements joined with their successors

A table of ranges is often written from start marks alone: each range ends where
the next one starts, and the last one gets an end of its own. When the marks are
sorted, a point between the first mark and the last end lies in exactly one
range, the one that belongs to the greatest mark up to the point.
-/
namespace Successive

variable {α β γ κ : Type} [LinearOrder α]

/-- Each element joined with its successor; the last one is closed on its own. -/
def chain (next : β → β → γ) (last : β → γ) : List β → List γ
  | [] => []
  | [x] => [last x]
  | x :: y :: xs => next x y :: chain next last (y :: xs)

section Chain

variable {next : β → β → γ} {last : β → γ}

theorem map_chain {g : γ → κ} {k : β → κ} (hnext : ∀ x y, g (next x y) = k x)
    (hlast : ∀ x, g (last x) = k x) (xs : List β) : (chain next last xs).map g = xs.map k := by
  induction xs with
  | nil => rfl
  | cons x xs ih =>
    cases xs with
    | nil => simp [chain, hlast]
    | cons y xs => simp [chain, hnext, ih]

theorem mem_chain {xs : List β} {c : γ} (h : c ∈ chain next last xs) :
    (∃ x ∈ xs, ∃ y ∈ xs, c = next x y) ∨ ∃ x ∈ xs, c = last x := by
  induction xs with
  | nil => cases h
  | cons x xs ih =>
    cases xs with
    | nil =>
      rw [chain, List.mem_singleton] at h
      exact .inr ⟨x, List.mem_cons_self, h⟩
    | cons y xs =>
      rw [chain] at h
      rcases List.mem_cons.mp h with rfl | h
      · exact .inl ⟨x, List.mem_cons_self, y, by simp, rfl⟩
      · rcases ih h with ⟨z, hz, w, hw, rfl⟩ | ⟨z, hz, rfl⟩
        · exact .inl ⟨z, List.mem_cons_of_mem x hz, w, List.mem_cons_of_mem x hw, rfl⟩
        · exact .inr ⟨z, List.mem_cons_of_mem x hz, rfl⟩

/-- A relation between each mark and its joined element that only depends on the mark. -/
theorem forall₂_chain {r : β → γ → Prop} {q : β → Prop} {xs : List β}
    (hnext : ∀ x ∈ xs, ∀ y, r x (next x y) ↔ q x) (hlast : ∀ x ∈ xs, r x (last x) ↔ q x) :
    List.Forall₂ r xs (chain next last xs) ↔ ∀ x ∈ xs, q x := by
  induction xs with
  | nil => simp [chain]
  | cons x xs ih =>
    cases xs with
    | nil =>
      have hx := hlast x List.mem_cons_self
      simp [chain, hx]
    | cons y xs =>
      have hx := hnext x List.mem_cons_self y
      have hrest := ih (fun z hz => hnext z (List.mem_cons_of_mem x hz))
        (fun z hz => hlast z (List.mem_cons_of_mem x hz))
      unfold chain
      rw [List.forall₂_cons, hx, hrest, List.forall_mem_cons (a := x)]

/-- Change the last element of a list, if there is one. -/
def modifyLast (f : γ → γ) : List γ → List γ
  | [] => []
  | [c] => [f c]
  | c :: d :: cs => c :: modifyLast f (d :: cs)

/-- A list is joined from the front: a new element closes the last one and is the last. -/
theorem chain_concat (close : β → γ → γ) (hclose : ∀ x y, close y (last x) = next x y)
    {xs : List β} (hne : xs ≠ []) (y : β) :
    modifyLast (close y) (chain next last xs) ++ [last y] = chain next last (xs ++ [y]) := by
  induction xs with
  | nil => exact absurd rfl hne
  | cons x xs ih =>
    cases xs with
    | nil => simp [chain, modifyLast, hclose]
    | cons x' xs =>
      have hrest := ih (by simp)
      rw [chain, List.cons_append, List.cons_append, chain, ← List.cons_append, ← hrest]
      cases hchain : chain next last (x' :: xs) with
      | nil => cases xs <;> simp [chain] at hchain
      | cons c cs => rfl

theorem modifyLast_chain (close : γ → γ) {last' : β → γ} (hclose : ∀ x, close (last x) = last' x)
    (xs : List β) : modifyLast close (chain next last xs) = chain next last' xs := by
  induction xs with
  | nil => rfl
  | cons x xs ih =>
    cases xs with
    | nil => simp [chain, modifyLast, hclose]
    | cons y xs =>
      rw [chain, chain, ← ih]
      cases hchain : chain next last (y :: xs) with
      | nil => cases xs <;> simp [chain] at hchain
      | cons c cs => rfl

end Chain

/-- The joined elements that `q` selects are the ranges around the point `p`: from the
mark `f x` to the next mark, or to `top x` for the last one. -/
structure Covers (f top : β → α) (p : α) (q : γ → Bool) (next : β → β → γ) (last : β → γ)
    (xs : List β) : Prop where
  next : ∀ x ∈ xs, ∀ y ∈ xs, q (next x y) = true ↔ f x ≤ p ∧ p < f y
  last : ∀ x ∈ xs, q (last x) = true ↔ f x ≤ p ∧ p < top x

section Cover

variable {f top : β → α} {p : α} {q : γ → Bool} {next : β → β → γ} {last : β → γ}

theorem Covers.tail {x : β} {xs : List β} (h : Covers f top p q next last (x :: xs)) :
    Covers f top p q next last xs where
  next y hy z hz := h.next y (List.mem_cons_of_mem x hy) z (List.mem_cons_of_mem x hz)
  last y hy := h.last y (List.mem_cons_of_mem x hy)

theorem filter_chain_of_lt {xs : List β} (hq : Covers f top p q next last xs)
    (hlt : ∀ x ∈ xs, p < f x) : (chain next last xs).filter q = [] := by
  induction xs with
  | nil => rfl
  | cons x xs ih =>
    have hx := hlt x List.mem_cons_self
    cases xs with
    | nil =>
      have hno : ¬ q (last x) = true := by
        rw [hq.last x List.mem_cons_self]
        intro h
        exact absurd hx (not_lt.mpr h.1)
      simp [chain, hno]
    | cons y xs =>
      have hno : ¬ q (next x y) = true := by
        rw [hq.next x List.mem_cons_self y (by simp)]
        intro h
        exact absurd hx (not_lt.mpr h.1)
      unfold chain
      rw [List.filter_cons_of_neg hno]
      exact ih hq.tail fun z hz => hlt z (List.mem_cons_of_mem x hz)

/-- Exactly one range covers the point, and its mark is the greatest one up to the point. -/
theorem filter_chain {g : γ → κ} {k : β → κ} {xs : List β}
    (hnext : ∀ x y, g (next x y) = k x) (hlast : ∀ x, g (last x) = k x)
    (hq : Covers f top p q next last xs) (hsorted : xs.Pairwise fun x y => f x ≤ f y)
    (hne : xs ≠ []) (hfirst : ∀ x ∈ xs.head?, f x ≤ p) (htop : ∀ x ∈ xs.getLast?, p < top x) :
    ∃ x ∈ xs, ∃ c, (chain next last xs).filter q = [c] ∧ g c = k x ∧ f x ≤ p ∧
      ∀ y ∈ xs, f y ≤ p → f y ≤ f x := by
  induction xs with
  | nil => exact absurd rfl hne
  | cons x xs ih =>
    have hx : f x ≤ p := hfirst x rfl
    obtain ⟨hle, hrest⟩ := List.pairwise_cons.mp hsorted
    cases xs with
    | nil =>
      have hyes : q (last x) = true := (hq.last x List.mem_cons_self).mpr ⟨hx, htop x rfl⟩
      refine ⟨x, List.mem_cons_self, last x, by simp [chain, hyes], hlast x, hx, ?_⟩
      intro y hy _
      rw [List.mem_singleton.mp hy]
    | cons y xs =>
      have hxy := hle y List.mem_cons_self
      by_cases hy : f y ≤ p
      · -- the point is behind the next mark: the range of `x` does not reach it
        have hno : ¬ q (next x y) = true := by
          rw [hq.next x List.mem_cons_self y (by simp)]
          intro h
          exact absurd h.2 (not_lt.mpr hy)
        obtain ⟨z, hz, c, hfilter, hc, hzp, hgreatest⟩ := ih hq.tail hrest (by simp)
          (by intro w hw; cases hw; exact hy) (by simpa using htop)
        refine ⟨z, List.mem_cons_of_mem x hz, c, ?_, hc, hzp, ?_⟩
        · unfold chain
          rw [List.filter_cons_of_neg hno, hfilter]
        · intro w hw hwp
          rcases List.mem_cons.mp hw with rfl | hw
          · exact hxy.trans (hgreatest y List.mem_cons_self hy)
          · exact hgreatest w hw hwp
      · -- all later marks are behind the point
        have hyp := not_le.mp hy
        have hlater : ∀ z ∈ y :: xs, p < f z := by
          intro z hz
          rcases List.mem_cons.mp hz with rfl | hz
          · exact hyp
          · exact hyp.trans_le ((List.pairwise_cons.mp hrest).1 z hz)
        have hyes : q (next x y) = true :=
          (hq.next x List.mem_cons_self y (by simp)).mpr ⟨hx, hyp⟩
        refine ⟨x, List.mem_cons_self, next x y, ?_, hnext x y, hx, ?_⟩
        · unfold chain
          rw [List.filter_cons_of_pos hyes, filter_chain_of_lt hq.tail hlater]
        · intro w hw hwp
          rcases List.mem_cons.mp hw with rfl | hw
          · exact le_rfl
          · exact absurd hwp (not_le.mpr (hlater w hw))

end Cover

end Successive
