import DSYMCreator.Text.Lines

/-!
# Text that is UTF-8

ASCII bytes encode themselves, and encoded parts stay encoded when they are joined
with an ASCII separator.
-/
namespace Text

def IsUtf8 (s : Bytes) : Prop := s.toByteArray.IsValidUTF8

theorem IsUtf8.append {s t : Bytes} (hs : IsUtf8 s) (ht : IsUtf8 t) : IsUtf8 (s ++ t) := by
  unfold IsUtf8
  rw [List.toByteArray_append]
  exact ByteArray.IsValidUTF8.append hs ht

theorem isUtf8_of_ascii {s : Bytes} (h : ∀ c ∈ s, c < 128) : IsUtf8 s := by
  induction s with
  | nil => exact ByteArray.isValidUTF8_empty
  | cons c s ih =>
    have hc := h c List.mem_cons_self
    have hsize : (Char.ofUInt8 c).utf8Size = 1 := by
      have hval : (Char.ofUInt8 c).val.toNat = c.toNat := UInt8.toNat_toUInt32 c
      rw [Char.utf8Size_eq_one_iff, UInt32.le_iff_toNat_le, hval]
      exact Nat.le_of_lt_succ (UInt8.lt_iff_toNat_lt.mp hc)
    have hcode : (Char.ofUInt8 c).val.toUInt8 = c := UInt8.toUInt8_toUInt32 c
    have hfirst := Char.isValidUTF8_toByteArray_utf8EncodeChar (c := Char.ofUInt8 c)
    rw [String.utf8EncodeChar_eq_singleton hsize, hcode] at hfirst
    rw [← List.singleton_append]
    apply IsUtf8.append
    · exact hfirst
    · exact ih fun d hd => h d (List.mem_cons_of_mem c hd)

theorem isUtf8_singleton {c : UInt8} (hc : c < 128) : IsUtf8 [c] := by
  apply isUtf8_of_ascii
  intro d hd
  rw [List.mem_singleton.mp hd]
  exact hc

theorem isUtf8_joinWith {sep : UInt8} (hsep : sep < 128) {parts : List Bytes}
    (h : ∀ p ∈ parts, IsUtf8 p) : IsUtf8 (joinWith sep parts) := by
  induction parts with
  | nil => exact ByteArray.isValidUTF8_empty
  | cons p parts ih =>
    have hp := h p List.mem_cons_self
    have hrest := ih fun q hq => h q (List.mem_cons_of_mem p hq)
    cases parts with
    | nil => simpa [joinWith] using hp
    | cons q parts =>
      rw [joinWith_cons_cons, ← List.singleton_append]
      apply hp.append
      exact (isUtf8_singleton hsep).append hrest

theorem isUtf8_unlines {ls : List Bytes} (h : ∀ l ∈ ls, IsUtf8 l) : IsUtf8 (unlines ls) := by
  induction ls with
  | nil => exact ByteArray.isValidUTF8_empty
  | cons l ls ih =>
    have hl := h l List.mem_cons_self
    have hrest := ih fun q hq => h q (List.mem_cons_of_mem l hq)
    have hnewline : newline < 128 := by decide
    unfold unlines
    rw [List.flatMap_cons]
    exact (hl.append (isUtf8_singleton hnewline)).append hrest

end Text
