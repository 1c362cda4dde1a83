import DSYMCreator.Text.HexNumeral

/-!
# Bytes spelled with two digits each

A text of pairs of hexadecimal digits spells one byte for each pair. Digits of
either case spell the same byte, and nothing else does.
-/
namespace Text

/-- The bytes that pairs of digits spell. -/
def hexBytes : Bytes → Option Bytes
  | [] => some []
  | [_] => none
  | a :: b :: cs =>
    match hexVal a, hexVal b, hexBytes cs with
    | some hi, some lo, some bs => some (UInt8.ofNat (16 * hi + lo) :: bs)
    | _, _, _ => none

/-- The lower-case form of a digit. -/
def lowerCase (c : UInt8) : UInt8 := if 65 ≤ c ∧ c ≤ 70 then c + 32 else c

theorem hexVal_lt {c : UInt8} {v : ℕ} (h : hexVal c = some v) : v < 16 := by
  have hrange := isHex_range (c := c) (by simp [isHex, h])
  simp only [UInt8.le_iff_toNat_le, UInt8.reduceToNat] at hrange
  unfold hexVal at h
  simp only [UInt8.le_iff_toNat_le, UInt8.reduceToNat] at h
  split_ifs at h
  all_goals
    cases h
    omega

theorem lowerCase_eq {c : UInt8} {v : ℕ} (h : hexVal c = some v) : lowerCase c = hexDigit v := by
  apply UInt8.toNat_inj.mp
  unfold hexVal at h
  unfold lowerCase hexDigit
  simp only [UInt8.le_iff_toNat_le, UInt8.reduceToNat] at h ⊢
  split_ifs at h ⊢
  all_goals
    cases h
    simp only [UInt8.toNat_add, UInt8.toNat_ofNat', UInt8.reduceToNat]
    omega

theorem hexBytes_cons {a b : UInt8} {cs bs : Bytes} :
    hexBytes (a :: b :: cs) = some bs ↔ ∃ hi lo rest, hexVal a = some hi ∧ hexVal b = some lo ∧
      hexBytes cs = some rest ∧ bs = UInt8.ofNat (16 * hi + lo) :: rest := by
  rw [hexBytes]
  constructor
  · intro h
    split at h
    next hi lo rest hhi hlo hrest =>
      exact ⟨hi, lo, rest, hhi, hlo, hrest, (Option.some.inj h).symm⟩
    next => cases h
  · rintro ⟨hi, lo, rest, hhi, hlo, hrest, rfl⟩
    simp only [hhi, hlo, hrest]

theorem isHex_of_hexBytes : ∀ {s bs : Bytes}, hexBytes s = some bs → ∀ c ∈ s, isHex c = true
  | [], _, _, c, hc => by cases hc
  | [_], _, h, _, _ => by cases h
  | a :: b :: cs, bs, h, c, hc => by
    obtain ⟨hi, lo, rest, hhi, hlo, hrest, -⟩ := hexBytes_cons.mp h
    rcases List.mem_cons.mp hc with rfl | hc
    · simp [isHex, hhi]
    · rcases List.mem_cons.mp hc with rfl | hc
      · simp [isHex, hlo]
      · exact isHex_of_hexBytes hrest c hc

theorem lowerCase_eq_of_hexBytes : ∀ {s t bs : Bytes}, hexBytes s = some bs →
    hexBytes t = some bs → s.map lowerCase = t.map lowerCase
  | [], [], _, _, _ => rfl
  | [_], _, _, h, _ => by cases h
  | _, [_], _, _, h => by cases h
  | [], _ :: _ :: _, _, hs, ht => by
    obtain ⟨_, _, _, -, -, -, hbs⟩ := hexBytes_cons.mp ht
    cases hs
    cases hbs
  | _ :: _ :: _, [], _, hs, ht => by
    obtain ⟨_, _, _, -, -, -, hbs⟩ := hexBytes_cons.mp hs
    cases ht
    cases hbs
  | a :: b :: cs, a' :: b' :: cs', bs, hs, ht => by
    obtain ⟨hi, lo, rest, hhi, hlo, hrest, rfl⟩ := hexBytes_cons.mp hs
    obtain ⟨hi', lo', rest', hhi', hlo', hrest', hbs⟩ := hexBytes_cons.mp ht
    obtain ⟨hbyte, rfl⟩ := List.cons.inj hbs
    have hlo16 := hexVal_lt hlo
    have hlo16' := hexVal_lt hlo'
    have hvalues : 16 * hi + lo = 16 * hi' + lo' := by
      have hhi16 := hexVal_lt hhi
      have hhi16' := hexVal_lt hhi'
      have h := congrArg UInt8.toNat hbyte
      simp only [UInt8.toNat_ofNat'] at h
      omega
    have hhigh : hi = hi' := by omega
    have hlow : lo = lo' := by omega
    subst hhigh hlow
    rw [List.map_cons, List.map_cons, List.map_cons, List.map_cons, lowerCase_eq hhi,
      lowerCase_eq hlo, lowerCase_eq hhi', lowerCase_eq hlo', lowerCase_eq_of_hexBytes hrest hrest']

theorem strtol_pair {a b : UInt8} {hi lo : ℕ} (ha : hexVal a = some hi) (hb : hexVal b = some lo) :
    strtol [a, b] = (16 * hi + lo : ℕ) := by
  have hspelled : Spelled [a, b] [] [a, b] [] := by
    refine ⟨rfl, .inl rfl, .inl rfl, List.cons_ne_nil _ _, ?_⟩
    intro c hc
    simp only [List.mem_cons, List.not_mem_nil, or_false] at hc
    rcases hc with rfl | rfl
    · simp [isHex, ha]
    · simp [isHex, hb]
  have hvalue : ofDigits ([a, b].filterMap hexVal) = 16 * hi + lo := by
    simp [ha, hb, ofDigits]
  have hhi := hexVal_lt ha
  have hlo := hexVal_lt hb
  unfold strtol
  rw [hspelled.scanHex_eq, hvalue]
  simp only [Bool.false_eq_true, if_false]
  omega

end Text
