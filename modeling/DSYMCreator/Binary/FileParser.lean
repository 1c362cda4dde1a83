import DSYMCreator.Binary.Parser
import DSYMCreator.Binary.Slices

/-!
# Parsers at an offset of a file

When a parser that was started at an offset of a file succeeds, its fields are in the
file, one behind the other, and the bytes that are left start behind the last one.
-/
namespace Binary.Parser

variable {α β : Type} {file rest : List UInt8} {off n : ℕ} {a : α}

theorem bytes_drop (hoff : off ≤ file.length) {bs : List UInt8}
    (h : bytes n (file.drop off) = some (bs, rest)) :
    off + n ≤ file.length ∧ bs = slice file off n ∧ rest = file.drop (off + n) := by
  unfold bytes at h
  split_ifs at h with hn
  cases h
  rw [List.length_drop] at hn
  exact ⟨by omega, rfl, List.drop_drop ..⟩

theorem bind_eq_some {p : Parser α} {q : α → Parser β} {bs : List UInt8} {r : β × List UInt8}
    (h : (p >>= q) bs = some r) : ∃ a rest, p bs = some (a, rest) ∧ q a rest = some r := by
  change (p bs >>= fun x => q x.1 x.2) = some r at h
  obtain ⟨⟨a, rest⟩, hp, hq⟩ := Option.bind_eq_some_iff.mp h
  exact ⟨a, rest, hp, hq⟩

theorem bind_bytes (hoff : off ≤ file.length) {q : List UInt8 → Parser β} {r : β × List UInt8}
    (h : (bytes n >>= q) (file.drop off) = some r) :
    off + n ≤ file.length ∧ q (slice file off n) (file.drop (off + n)) = some r := by
  obtain ⟨bs, rest, hbytes, hq⟩ := bind_eq_some h
  obtain ⟨hinside, rfl, rfl⟩ := bytes_drop hoff hbytes
  exact ⟨hinside, hq⟩

theorem bind_uint (hoff : off ≤ file.length) {q : ℕ → Parser β} {r : β × List UInt8}
    (h : (uint n >>= q) (file.drop off) = some r) :
    off + n ≤ file.length ∧ q (leNat (slice file off n)) (file.drop (off + n)) = some r := by
  unfold uint at h
  rw [bind_assoc] at h
  exact bind_bytes hoff h

/-- The parser reads records of `size` bytes with a relation to their offset. -/
def ReadsRecords (file : List UInt8) (p : Parser α) (size : ℕ) (R : ℕ → α → Prop) : Prop :=
  ∀ off ≤ file.length, ∀ a rest, p (file.drop off) = some (a, rest) →
    off + size ≤ file.length ∧ rest = file.drop (off + size) ∧ R off a

theorem times_drop {p : Parser α} {size : ℕ} {R : ℕ → α → Prop} (hp : ReadsRecords file p size R)
    (hoff : off ≤ file.length) {as : List α} (h : times p n (file.drop off) = some (as, rest)) :
    off + n * size ≤ file.length ∧ rest = file.drop (off + n * size) ∧ as.length = n ∧
      ∀ i a, as[i]? = some a → R (off + i * size) a := by
  induction n generalizing off as with
  | zero =>
    cases h
    simpa using hoff
  | succ n ih =>
    obtain ⟨a, mid, hfirst, h⟩ := bind_eq_some h
    obtain ⟨hinside, rfl, hR⟩ := hp off hoff a mid hfirst
    obtain ⟨as', rest', hrest, h⟩ := bind_eq_some h
    cases h
    obtain ⟨hinside', hrest', hlength, hR'⟩ := ih hinside hrest
    have hsum : off + size + n * size = off + (n + 1) * size := by ring
    rw [hsum] at hinside' hrest'
    refine ⟨hinside', hrest', by rw [List.length_cons, hlength], fun i b hb => ?_⟩
    cases i with
    | zero =>
      cases hb
      simpa using hR
    | succ i =>
      have hnext := hR' i b hb
      have hplace : off + size + i * size = off + (i + 1) * size := by ring
      rwa [hplace] at hnext

end Binary.Parser
