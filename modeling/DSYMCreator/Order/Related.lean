import Mathlib.Data.List.Forall2

/-!
# Lists related element by element

What one side of two related lists knows of the other, and how a relation that
each element has a partner in becomes a relation of lists.
-/
namespace Related

variable {α β : Type} {r : α → β → Prop} {as : List α} {bs : List β}

theorem exists_of_mem_left (h : List.Forall₂ r as bs) : ∀ a ∈ as, ∃ b, r a b := by
  induction h with
  | nil =>
    intro a ha
    cases ha
  | @cons a b as bs hab _ ih =>
    intro a' ha'
    rcases List.mem_cons.mp ha' with rfl | ha'
    · exact ⟨b, hab⟩
    · exact ih a' ha'

theorem exists_of_mem_right (h : List.Forall₂ r as bs) : ∀ b ∈ bs, ∃ a, r a b :=
  exists_of_mem_left h.flip

theorem exists_forall₂ (h : ∀ a ∈ as, ∃ b, r a b) : ∃ bs, List.Forall₂ r as bs := by
  induction as with
  | nil => exact ⟨[], .nil⟩
  | cons a as ih =>
    obtain ⟨b, hb⟩ := h a List.mem_cons_self
    obtain ⟨bs, hbs⟩ := ih fun a' ha' => h a' (List.mem_cons_of_mem a ha')
    exact ⟨b :: bs, .cons hb hbs⟩

/-- A relation may use a property that every element of the left list has. -/
theorem imp_of_forall_left {p : α → Prop} {s : α → β → Prop} (h : List.Forall₂ r as bs)
    (hp : ∀ a ∈ as, p a) (hs : ∀ a b, p a → r a b → s a b) : List.Forall₂ s as bs :=
  ((List.forall₂_and_left as bs).mpr ⟨hp, h⟩).imp fun a b hab => hs a b hab.1 hab.2

end Related
