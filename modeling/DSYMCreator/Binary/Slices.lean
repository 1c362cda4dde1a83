import Mathlib.Data.List.Basic
import Mathlib.Data.List.TakeDrop
import Mathlib.Tactic

/-!
# Slices of a file and the pieces laid end to end in it

`slice` cuts a range out of a file by offset and length. `OccursAt file off
piece` says that `piece` stands in `file` at `off`; a file written as a
concatenation has its pieces at the running sums of their lengths, and what a
reader cuts out there is the piece itself. Regions are offset and length pairs,
compared by the offsets they cover.
-/
namespace Binary

variable {α : Type*}

/-- The `len` elements of `file` from offset `off` on. -/
def slice (file : List α) (off len : ℕ) : List α := (file.drop off).take len

/-- `piece` stands in `file` at offset `off`. -/
def OccursAt (file : List α) (off : ℕ) (piece : List α) : Prop :=
  ∃ before after, file = before ++ piece ++ after ∧ before.length = off

namespace OccursAt

variable {file piece p q : List α} {off : ℕ}

theorem slice_eq (h : OccursAt file off piece) : slice file off piece.length = piece := by
  obtain ⟨before, after, rfl, rfl⟩ := h
  simp [slice]

theorem drop_eq (h : OccursAt file off piece) : ∃ after, file.drop off = piece ++ after := by
  obtain ⟨before, after, rfl, rfl⟩ := h
  exact ⟨after, by simp⟩

theorem bound (h : OccursAt file off piece) : off + piece.length ≤ file.length := by
  obtain ⟨before, after, rfl, rfl⟩ := h
  simp only [List.length_append]
  omega

theorem left (h : OccursAt file off (p ++ q)) : OccursAt file off p := by
  obtain ⟨before, after, rfl, rfl⟩ := h
  exact ⟨before, q ++ after, by simp, rfl⟩

theorem right (h : OccursAt file off (p ++ q)) : OccursAt file (off + p.length) q := by
  obtain ⟨before, after, rfl, rfl⟩ := h
  exact ⟨before ++ p, after, by simp, by simp⟩

theorem getElem? (h : OccursAt file off piece) {i : ℕ} (hi : i < piece.length) :
    file[off + i]? = piece[i]? := by
  obtain ⟨before, after, rfl, rfl⟩ := h
  rw [List.append_assoc, List.getElem?_append_right (by omega), Nat.add_sub_cancel_left,
    List.getElem?_append_left hi]

theorem cast {off' : ℕ} (h : OccursAt file off piece) (he : off = off') :
    OccursAt file off' piece := he ▸ h

theorem trans {inner : List α} {k : ℕ} (h : OccursAt file off piece) (hi : OccursAt piece k inner) :
    OccursAt file (off + k) inner := by
  obtain ⟨before, after, rfl, rfl⟩ := h
  obtain ⟨b, a, rfl, rfl⟩ := hi
  exact ⟨before ++ b, a ++ after, by simp, by simp⟩

end OccursAt

/-- A range of offsets: where it starts and how long it is. -/
structure Region where
  start : ℕ
  len : ℕ
  deriving DecidableEq, Repr

namespace Region

def stop (r : Region) : ℕ := r.start + r.len

def Contains (r : Region) (i : ℕ) : Prop := r.start ≤ i ∧ i < r.stop

/-- No offset lies in both regions; an empty region is disjoint from every region. -/
def Disjoint (r s : Region) : Prop := ∀ i, ¬ (r.Contains i ∧ s.Contains i)

/-- The regions follow one another without a gap, from `a` to `b`. -/
def Tile (a : ℕ) : List Region → ℕ → Prop
  | [], b => a = b
  | r :: rs, b => r.start = a ∧ Tile r.stop rs b

theorem disjoint_of_stop_le {r s : Region} (h : r.stop ≤ s.start) : r.Disjoint s := by
  rintro i ⟨hr, hs⟩
  have h1 := hr.2
  have h2 := hs.1
  omega

/-- The regions start at `a` or later and each ends before the next one starts. -/
def Ordered (a : ℕ) : List Region → Prop
  | [] => True
  | r :: rs => a ≤ r.start ∧ Ordered r.stop rs

theorem Ordered.le_start {a : ℕ} {rs : List Region} (h : Ordered a rs) {r : Region} (hr : r ∈ rs) :
    a ≤ r.start := by
  induction rs generalizing a with
  | nil => cases hr
  | cons s rs ih =>
    obtain ⟨hs, hrest⟩ := h
    rcases List.mem_cons.mp hr with rfl | hr
    · exact hs
    · have hstop := ih hrest hr
      rw [stop] at hstop
      omega

theorem Ordered.pairwise_disjoint {a : ℕ} {rs : List Region} (h : Ordered a rs) :
    rs.Pairwise Disjoint := by
  induction rs generalizing a with
  | nil => exact .nil
  | cons s rs ih =>
    exact .cons (fun r hr => disjoint_of_stop_le (h.2.le_start hr)) (ih h.2)

end Region
end Binary
