import Mathlib.Data.Finset.Sort
import Mathlib.Order.Bounds.Basic

/-!
# Loops along the elements of a finite set

A loop asks for the next greater element again and again until it gets a value that
is no element. It runs its body on the elements above its start, each once and in
ascending order, and it ends.
-/
namespace NextElement

variable {α σ : Type*} [LinearOrder α]

/-- `next` finds the least element above its argument, or says `top` if there is none. -/
structure Finds (next : α → α) (elements : Finset α) (top : α) : Prop where
  top_notMem : top ∉ elements
  isLeast : ∀ a, next a ≠ top → IsLeast {b | b ∈ elements ∧ a < b} (next a)
  none_above : ∀ a, next a = top → ∀ b ∈ elements, ¬ a < b

/-- `for (; a != top; a = next(a)) body(a)`, with a bound on the number of tests. -/
def loop (next : α → α) (top : α) (body : σ → α → σ) : ℕ → α → σ → Option σ
  | 0, _, _ => none
  | n + 1, a, s => if a = top then some s else loop next top body n (next a) (body s a)

/-- The elements above a value, in ascending order. -/
def above (elements : Finset α) (a : α) : List α := (elements.filter (a < ·)).sort

variable {next : α → α} {elements : Finset α} {top a : α} {body : σ → α → σ}

theorem mem_above {b : α} : b ∈ above elements a ↔ b ∈ elements ∧ a < b := by
  rw [above, Finset.mem_sort, Finset.mem_filter]

theorem above_pairwise (elements : Finset α) (a : α) : (above elements a).Pairwise (· < ·) :=
  (Finset.sortedLT_sort _).pairwise

theorem length_above_le (elements : Finset α) (a : α) : (above elements a).length ≤ elements.card := by
  rw [above, Finset.length_sort]
  exact Finset.card_filter_le _ _

/-- One step: nothing is left above the start, or the next element comes first. -/
theorem Finds.above_eq (h : Finds next elements top) (a : α) :
    above elements a = if next a = top then [] else next a :: above elements (next a) := by
  split_ifs with htop
  · have hempty : elements.filter (a < ·) = ∅ := by
      rw [Finset.filter_eq_empty_iff]
      exact fun b hb => h.none_above a htop b hb
    rw [above, hempty, Finset.sort_empty]
  · obtain ⟨⟨hmem, hlt⟩, hleast⟩ := h.isLeast a htop
    have hinsert : elements.filter (a < ·) = insert (next a) (elements.filter (next a < ·)) := by
      ext b
      rw [Finset.mem_insert, Finset.mem_filter, Finset.mem_filter]
      constructor
      · rintro ⟨hb, hab⟩
        rcases (hleast ⟨hb, hab⟩).eq_or_lt with heq | hltb
        · exact .inl heq.symm
        · exact .inr ⟨hb, hltb⟩
      · rintro (rfl | ⟨hb, hltb⟩)
        · exact ⟨hmem, hlt⟩
        · exact ⟨hb, hlt.trans hltb⟩
    rw [above, hinsert, Finset.sort_insert]
    · rfl
    · intro b hb
      exact (Finset.mem_filter.mp hb).2.le
    · simp

theorem Finds.loop_eq (h : Finds next elements top) {n : ℕ} (hn : (above elements a).length < n)
    (s : σ) : loop next top body n (next a) s = some ((above elements a).foldl body s) := by
  induction n generalizing a s with
  | zero => exact absurd hn (Nat.not_lt_zero _)
  | succ n ih =>
    have hstep := h.above_eq a
    unfold loop
    split_ifs at hstep ⊢ with htop
    · rw [hstep]
      rfl
    · rw [hstep, List.length_cons] at hn
      rw [hstep, List.foldl_cons]
      exact ih (Nat.lt_of_succ_lt_succ hn) _

end NextElement
