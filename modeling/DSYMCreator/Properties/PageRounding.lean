import DSYMCreator.Tool.Macho

/-!
# Rounding in machine arithmetic

`align_to` subtracts one, divides, adds one and multiplies, all modulo the width of
the address. Both wraps cancel for a power of two: the result is the least multiple
that is not below the address, and it is below it only when that multiple is `2 ^ w`.
-/
namespace DSYMCreator.Macho

open Binary

/-- The least multiple of `a` from `x` on, in unbounded integers. -/
def LeastMultiple (a x m : ℕ) : Prop := IsLeast {k | a ∣ k ∧ x ≤ k} m

/-- `align_to` is exact modulo the width, and smaller than the address only at the top. -/
theorem alignTo_exact (T : AddrType) (x : Addr T) (a : BitVec 32) (ha : ∃ k, a.toNat = 2 ^ k) :
    (∃ m, LeastMultiple a.toNat x.toNat m ∧ (alignTo x a).toNat = m % 2 ^ (8 * T.size)) ∧
      (alignTo x a < x ↔ 2 ^ (8 * T.size) - a.toNat < x.toNat) := by
  have hwidth : 32 ≤ 8 * T.size := by
    have hsize := T.size_ge
    omega
  have hdvd := dvd_modulus hwidth ha
  have hpos : 0 < a.toNat := Nat.pos_of_dvd_of_pos hdvd (Nat.two_pow_pos _)
  have hround := alignTo_toNat hwidth x ha
  refine ⟨⟨_, roundUp_isLeast hpos x.toNat, hround⟩, ?_⟩
  rw [BitVec.lt_def, hround]
  have hx := x.isLt
  have hmodulus := Nat.le_of_dvd (Nat.two_pow_pos _) hdvd
  have htop := roundUp_eq_iff hpos hdvd hx.le
  have hle := (roundUp_le_iff hpos hdvd).mpr hx.le
  by_cases hover : roundUp a.toNat x.toNat = 2 ^ (8 * T.size)
  · rw [hover, Nat.mod_self]
    have habove := htop.mp hover
    omega
  · rw [Nat.mod_eq_of_lt (lt_of_le_of_ne hle hover)]
    have hself := le_roundUp hpos x.toNat
    constructor
    · omega
    · intro h
      exact absurd (htop.mpr (by omega)) hover

/-- One page below the top nothing is lost; one address above, the result is zero. -/
theorem alignTo_exact_page :
    ((∃ m, LeastMultiple 0x1000 0xfffff001 m ∧
        (alignTo (0xfffff001 : Addr .uint32) 0x1000).toNat = m % 2 ^ 32) ∧
      (alignTo (0xfffff001 : Addr .uint32) 0x1000 < (0xfffff001 : Addr .uint32) ↔
        2 ^ 32 - 0x1000 < 0xfffff001)) :=
  alignTo_exact .uint32 0xfffff001 0x1000 ⟨12, rfl⟩

end DSYMCreator.Macho
