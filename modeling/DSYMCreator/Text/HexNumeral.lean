import DSYMCreator.Text.Numerals
import Mathlib.Data.List.TakeWhile

/-!
# Texts that are hexadecimal numerals

A text is a numeral as a whole when it is made of digits of either case, with an
optional `0x` in front and an optional `L` behind. The scanner of the C library
reads the value of such a text; it also reads many texts that are no numerals.
-/
namespace Text

/-- The text behind an optional `0x`. -/
def afterPrefix : Bytes → Bytes
  | z :: x :: cs => if z = ch '0' ∧ x = ch 'x' then cs else z :: x :: cs
  | cs => cs

/-- The text in front of an optional `L`. -/
def beforeSuffix (s : Bytes) : Bytes := if s.getLast? = some (ch 'L') then s.dropLast else s

/-- The value of a text that is a numeral as a whole. -/
def hexNumeral (s : Bytes) : Option ℕ :=
  let digits := beforeSuffix (afterPrefix s)
  if digits ≠ [] ∧ digits.all isHex then some (ofDigits (digits.filterMap hexVal)) else none

/-- A numeral taken apart. -/
structure Spelled (s front digits back : Bytes) : Prop where
  eq : s = front ++ (digits ++ back)
  front_eq : front = [] ∨ front = [ch '0', ch 'x']
  back_eq : back = [] ∨ back = [ch 'L']
  ne_nil : digits ≠ []
  hex : ∀ c ∈ digits, isHex c = true

theorem isHex_range {c : UInt8} (h : isHex c = true) :
    (48 ≤ c ∧ c ≤ 57) ∨ (97 ≤ c ∧ c ≤ 102) ∨ (65 ≤ c ∧ c ≤ 70) := by
  unfold isHex hexVal at h
  split_ifs at h with h1 h2 h3
  · exact .inl h1
  · exact .inr (.inl h2)
  · exact .inr (.inr h3)
  · cases h

theorem isHex_ne {c : UInt8} (h : isHex c = true) : c ≠ 0 ∧ isSpace c = false ∧
    c ≠ ch '-' ∧ c ≠ ch '+' ∧ c ≠ ch 'x' ∧ c ≠ ch 'X' ∧ c ≠ ch 'L' := by
  have hrange := isHex_range h
  have hspace : isSpace c = false := by
    simp only [isSpace, Bool.or_eq_false_iff, beq_eq_false_iff_ne, Bool.and_eq_false_iff,
      decide_eq_false_iff_not]
    constructor
    · rintro rfl
      revert hrange
      decide
    · right
      simp only [UInt8.le_iff_toNat_le] at hrange ⊢
      simp at hrange ⊢
      omega
  refine ⟨?_, hspace, ?_, ?_, ?_, ?_, ?_⟩ <;>
    · rintro rfl
      revert hrange
      decide

namespace Spelled

variable {s front digits back : Bytes}

/-- The second character of the digits is a digit, the `L` or missing. -/
theorem second_ne (h : Spelled s front digits back) {z x : UInt8} {cs : Bytes}
    (hsplit : digits ++ back = z :: x :: cs) : x ≠ ch 'x' ∧ x ≠ ch 'X' := by
  obtain ⟨d, ds, rfl⟩ := List.exists_cons_of_ne_nil h.ne_nil
  have htail : ds ++ back = x :: cs := (List.cons.inj hsplit).2
  rcases ds with _ | ⟨e, es⟩
  · rcases h.back_eq with rfl | rfl
    · cases htail
    · obtain rfl : ch 'L' = x := (List.cons.inj htail).1
      decide
  · obtain rfl : e = x := (List.cons.inj htail).1
    have hne := isHex_ne (h.hex e (by simp))
    exact ⟨hne.2.2.2.2.1, hne.2.2.2.2.2.1⟩

theorem afterPrefix_eq (h : Spelled s front digits back) : afterPrefix s = digits ++ back := by
  rw [h.eq]
  rcases h.front_eq with rfl | rfl
  · rw [List.nil_append]
    rcases hcase : digits ++ back with _ | ⟨z, _ | ⟨x, cs⟩⟩
    · rfl
    · rfl
    · rw [afterPrefix, if_neg fun hzx => (h.second_ne hcase).1 hzx.2]
  · rfl

theorem beforeSuffix_eq (h : Spelled s front digits back) :
    beforeSuffix (digits ++ back) = digits := by
  unfold beforeSuffix
  rcases h.back_eq with rfl | rfl
  · have hlast : digits.getLast? ≠ some (ch 'L') := by
      intro hlast
      exact (isHex_ne (h.hex _ (List.mem_of_getLast? hlast))).2.2.2.2.2.2 rfl
    rw [List.append_nil, if_neg hlast]
  · simp

theorem value (h : Spelled s front digits back) :
    hexNumeral s = some (ofDigits (digits.filterMap hexVal)) := by
  have hall : digits.all isHex = true := List.all_eq_true.mpr h.hex
  simp only [hexNumeral, h.afterPrefix_eq, h.beforeSuffix_eq, hall]
  rw [if_pos ⟨h.ne_nil, trivial⟩]

theorem char (h : Spelled s front digits back) {c : UInt8} (hc : c ∈ s) :
    c ≠ 0 ∧ isSpace c = false ∧ c < 128 := by
  rw [h.eq, List.mem_append, List.mem_append] at hc
  rcases hc with hc | hc | hc
  · rcases h.front_eq with rfl | rfl
    · cases hc
    · rcases List.mem_cons.mp hc with rfl | hc
      · decide
      · rw [List.mem_singleton.mp hc]
        decide
  · have hne := isHex_ne (h.hex c hc)
    refine ⟨hne.1, hne.2.1, ?_⟩
    rcases isHex_range (h.hex c hc) with ⟨-, hle⟩ | ⟨-, hle⟩ | ⟨-, hle⟩
    all_goals exact UInt8.lt_of_le_of_lt hle (by decide)
  · rcases h.back_eq with rfl | rfl
    · cases hc
    · rw [List.mem_singleton.mp hc]
      decide

theorem skipPrefix_eq (h : Spelled s front digits back) : skipPrefix s = digits ++ back := by
  rw [h.eq]
  rcases h.front_eq with rfl | rfl
  · rw [List.nil_append]
    rcases hcase : digits ++ back with _ | ⟨z, _ | ⟨x, _ | ⟨y, cs⟩⟩⟩
    · rfl
    · rfl
    · rfl
    · simp [skipPrefix, h.second_ne hcase]
  · obtain ⟨d, ds, rfl⟩ := List.exists_cons_of_ne_nil h.ne_nil
    simp [skipPrefix, h.hex d List.mem_cons_self]

theorem scanHex_eq (h : Spelled s front digits back) :
    scanHex s = some ⟨false, ofDigits (digits.filterMap hexVal)⟩ := by
  have hcut : s.takeWhile (· ≠ 0) = s := by
    rw [List.takeWhile_eq_self_iff]
    intro c hc
    exact decide_eq_true (h.char hc).1
  obtain ⟨c, cs, hs, hsign⟩ : ∃ c cs, s = c :: cs ∧ c ≠ ch '-' ∧ c ≠ ch '+' := by
    obtain ⟨d, ds, hdigits⟩ := List.exists_cons_of_ne_nil h.ne_nil
    have hne := isHex_ne (h.hex d (by simp [hdigits]))
    rcases h.front_eq with hfront | hfront
    · exact ⟨d, ds ++ back, by rw [h.eq, hfront, hdigits]; rfl, hne.2.2.1, hne.2.2.2.1⟩
    · exact ⟨ch '0', ch 'x' :: (digits ++ back), by rw [h.eq, hfront]; rfl, by decide, by decide⟩
  have hblank : s.dropWhile isSpace = s := by
    rw [hs, List.dropWhile_cons_of_neg]
    simp [(h.char (hs ▸ List.mem_cons_self)).2.1]
  have hscan : scanSign s = (false, s) := by
    rw [hs, scanSign, if_neg hsign.1, if_neg hsign.2]
  have hstop : ∀ c, back.head? = some c → isHex c = false := by
    intro c hc
    rcases h.back_eq with rfl | rfl
    · cases hc
    · obtain rfl : ch 'L' = c := by simpa using hc
      decide
  have hprefix := digitPrefix_append h.hex hstop
  obtain ⟨v, vs, hvalues⟩ : ∃ v vs, digits.filterMap hexVal = v :: vs := by
    obtain ⟨d, ds, rfl⟩ := List.exists_cons_of_ne_nil h.ne_nil
    obtain ⟨v, hv⟩ := Option.isSome_iff_exists.mp (h.hex d List.mem_cons_self)
    exact ⟨v, ds.filterMap hexVal, List.filterMap_cons_some hv⟩
  simp only [scanHex, hcut, hblank, hscan, h.skipPrefix_eq, hprefix, hvalues]

end Spelled

theorem exists_spelled {s : Bytes} {v : ℕ} (h : hexNumeral s = some v) :
    ∃ front digits back, Spelled s front digits back := by
  simp only [hexNumeral] at h
  split_ifs at h with hdigits
  obtain ⟨hne, hall⟩ := hdigits
  have hfront : ∃ front, s = front ++ afterPrefix s ∧ (front = [] ∨ front = [ch '0', ch 'x']) := by
    rcases s with _ | ⟨z, _ | ⟨x, cs⟩⟩
    · exact ⟨[], rfl, .inl rfl⟩
    · exact ⟨[], rfl, .inl rfl⟩
    · by_cases hzx : z = ch '0' ∧ x = ch 'x'
      · obtain ⟨rfl, rfl⟩ := hzx
        exact ⟨_, rfl, .inr rfl⟩
      · exact ⟨[], by rw [afterPrefix, if_neg hzx, List.nil_append], .inl rfl⟩
  have hback (t : Bytes) : ∃ back, t = beforeSuffix t ++ back ∧ (back = [] ∨ back = [ch 'L']) := by
    unfold beforeSuffix
    by_cases hlast : t.getLast? = some (ch 'L')
    · exact ⟨[ch 'L'], by rw [if_pos hlast, List.dropLast_append_getLast? _ hlast], .inr rfl⟩
    · exact ⟨[], by rw [if_neg hlast, List.append_nil], .inl rfl⟩
  obtain ⟨front, hs, hfront⟩ := hfront
  obtain ⟨back, ht, hback⟩ := hback (afterPrefix s)
  exact ⟨front, _, back, hs.trans (congrArg _ ht), hfront, hback, hne, List.all_eq_true.mp hall⟩

theorem scanHex_of_hexNumeral {s : Bytes} {v : ℕ} (h : hexNumeral s = some v) :
    scanHex s = some ⟨false, v⟩ := by
  obtain ⟨front, digits, back, hs⟩ := exists_spelled h
  rw [hs.value] at h
  rw [hs.scanHex_eq, Option.some.inj h]

theorem mem_hexNumeral {s : Bytes} {v : ℕ} (h : hexNumeral s = some v) {c : UInt8} (hc : c ∈ s) :
    c ≠ 0 ∧ isSpace c = false ∧ c < 128 := by
  obtain ⟨front, digits, back, hs⟩ := exists_spelled h
  exact hs.char hc

/-- The lower-case spelling, with the prefix and with or without an `L`. -/
theorem hexNumeral_hexText (n : ℕ) {back : Bytes} (hback : back = [] ∨ back = [ch 'L']) :
    hexNumeral (ch '0' :: ch 'x' :: (hexText n ++ back)) = some n := by
  have hspelled : Spelled (ch '0' :: ch 'x' :: (hexText n ++ back)) [ch '0', ch 'x'] (hexText n)
      back := by
    refine ⟨rfl, .inr rfl, hback, ?_, ?_⟩
    · simpa [hexText] using hexDigits_ne_nil n
    · intro c hc
      obtain ⟨d, hd, rfl⟩ := List.mem_map.mp hc
      exact isHex_hexDigit (hexDigits_lt hd)
  have hvalues : (hexText n).filterMap hexVal = hexDigits n := by
    have hinverse : ∀ d ∈ hexDigits n, hexVal (hexDigit d) = some d :=
      fun d hd => hexVal_hexDigit (hexDigits_lt hd)
    rw [hexText, List.filterMap_map]
    exact (List.filterMap_congr hinverse).trans List.filterMap_some
  rw [hspelled.value, hvalues, ofDigits_hexDigits]

end Text
