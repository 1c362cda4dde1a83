import Mathlib.Algebra.Order.Floor.Div
import Mathlib.Data.Nat.Basic
import Mathlib.Tactic

/-!
# Rounding up to a multiple, in naturals and in machine words

`roundUp a n` is the least multiple of `a` that is at least `n`. Machine code
computes it as `((x - 1) / a + 1) * a`, where the subtraction wraps at zero and
the product can overflow; both wraps cancel as soon as `a` divides the word
size `2 ^ w`.
-/
namespace Binary

/-- The least multiple of `a` that is at least `n`. -/
def roundUp (a n : ℕ) : ℕ := a * (n ⌈/⌉ a)

theorem dvd_roundUp (a n : ℕ) : a ∣ roundUp a n := Nat.dvd_mul_right a _

theorem le_roundUp {a : ℕ} (ha : 0 < a) (n : ℕ) : n ≤ roundUp a n := by
  have h := le_smul_ceilDiv ha (b := n)
  simpa [roundUp] using h

theorem roundUp_le_iff {a : ℕ} (ha : 0 < a) {n m : ℕ} (hm : a ∣ m) : roundUp a n ≤ m ↔ n ≤ m := by
  obtain ⟨k, rfl⟩ := hm
  unfold roundUp
  rw [Nat.mul_le_mul_left_iff ha, ceilDiv_le_iff_le_smul ha, smul_eq_mul]

theorem roundUp_isLeast {a : ℕ} (ha : 0 < a) (n : ℕ) :
    IsLeast {m | a ∣ m ∧ n ≤ m} (roundUp a n) :=
  ⟨⟨dvd_roundUp a n, le_roundUp ha n⟩, fun _ hm => (roundUp_le_iff ha hm.1).2 hm.2⟩

theorem roundUp_eq_self {a : ℕ} (ha : 0 < a) {n : ℕ} (h : a ∣ n) : roundUp a n = n :=
  le_antisymm ((roundUp_le_iff ha h).2 le_rfl) (le_roundUp ha n)

theorem roundUp_zero (a : ℕ) : roundUp a 0 = 0 := by simp [roundUp]

/-- The formula of the code, in unbounded arithmetic and away from zero. -/
theorem roundUp_eq_pred_div {a n : ℕ} (ha : 0 < a) (hn : 0 < n) :
    roundUp a n = ((n - 1) / a + 1) * a := by
  have hceil : n ⌈/⌉ a = (n - 1) / a + 1 := by
    rw [Nat.ceilDiv_eq_add_pred_div, ← Nat.add_div_right _ ha]
    congr 1
    omega
  unfold roundUp
  rw [hceil, Nat.mul_comm]

theorem roundUp_lt_add {a : ℕ} (ha : 0 < a) (n : ℕ) : roundUp a n < n + a := by
  rcases Nat.eq_zero_or_pos n with rfl | hn
  · rw [roundUp_zero]
    omega
  · rw [roundUp_eq_pred_div ha hn, Nat.add_mul, Nat.one_mul]
    have h := Nat.div_mul_le_self (n - 1) a
    omega

theorem roundUp_lt_iff {a n N : ℕ} (ha : 0 < a) (hN : a ∣ N) : roundUp a n < N ↔ n + a ≤ N := by
  constructor
  · intro h
    have hstep : roundUp a n + a ≤ N := by
      obtain ⟨k, hk⟩ := dvd_roundUp a n
      obtain ⟨l, rfl⟩ := hN
      rw [hk] at h ⊢
      have hkl : k + 1 ≤ l := Nat.lt_of_mul_lt_mul_left h
      calc a * k + a = a * (k + 1) := by ring
        _ ≤ a * l := Nat.mul_le_mul_left a hkl
    have hle := le_roundUp ha n
    omega
  · intro h
    have hlt := roundUp_lt_add ha n
    omega

theorem roundUp_eq_iff {a n N : ℕ} (ha : 0 < a) (hN : a ∣ N) (hn : n ≤ N) :
    roundUp a n = N ↔ N < n + a := by
  have hle : roundUp a n ≤ N := (roundUp_le_iff ha hN).mpr hn
  have hlt := roundUp_lt_iff (n := n) ha hN
  omega

/-- `((x - 1) / a + 1) * a` on `w`-bit words is the rounding modulo `2 ^ w`. -/
theorem toNat_align {w : ℕ} (x a : BitVec w) (hdvd : a.toNat ∣ 2 ^ w) :
    (((x - 1) / a + 1) * a).toNat = roundUp a.toNat x.toNat % 2 ^ w := by
  have hapos : 0 < a.toNat := Nat.pos_of_dvd_of_pos hdvd (Nat.two_pow_pos w)
  have hone : (1 : BitVec w).toNat = 1 % 2 ^ w := by simp
  have hformula : (((x - 1) / a + 1) * a).toNat = ((x - 1).toNat / a.toNat + 1) * a.toNat % 2 ^ w := by
    rw [BitVec.toNat_mul, BitVec.toNat_add, BitVec.toNat_udiv, hone]
    simp [Nat.mul_mod, Nat.add_mod]
  rw [hformula]
  rcases Nat.eq_zero_or_pos x.toNat with hx | hx
  · -- at zero the subtraction wraps to the last word, whose successor is a multiple of `a`
    have hpred : (x - 1).toNat = 2 ^ w - 1 := by
      have hx0 : x = 0 := BitVec.eq_of_toNat_eq (by simpa using hx)
      subst hx0
      rcases w with _ | w
      · rfl
      · rw [BitVec.toNat_sub, hone]
        have h2 : 1 < 2 ^ (w + 1) := Nat.one_lt_two_pow (by omega)
        simp [Nat.mod_eq_of_lt h2]
    have hround := roundUp_eq_pred_div hapos (Nat.two_pow_pos w)
    rw [hpred, ← hround, roundUp_eq_self hapos hdvd, Nat.mod_self, hx, roundUp_zero, Nat.zero_mod]
  · have hpred : (x - 1).toNat = x.toNat - 1 := by
      have hw : 1 < 2 ^ w := by
        have := x.isLt
        omega
      rw [BitVec.toNat_sub, hone, Nat.mod_eq_of_lt hw]
      have := x.isLt
      rw [show 2 ^ w - 1 + x.toNat = 2 ^ w + (x.toNat - 1) by omega, Nat.add_mod_left,
        Nat.mod_eq_of_lt (by omega)]
    rw [hpred, ← roundUp_eq_pred_div hapos hx]

end Binary
