import DSYMCreator.Script.Python
import DSYMCreator.Text.LineTools

/-!
# What `%r` prints

An integer is printed in decimal, with an `L` behind a `long`. A string is put
between quotes with every byte escaped that is no printable ASCII character, so
that it stays on its line; the escape `\xhh` has digits of its own.
-/
namespace Python

open Text

/-- The decimal digits of a number, most significant first; zero has one digit. -/
def decDigits (n : ℕ) : List ℕ := if n = 0 then [0] else (Nat.digits 10 n).reverse

/-- `str(n)` of a number that is not negative. -/
def decText (n : ℕ) : Bytes := (decDigits n).map hexDigit

/-- `repr(x)` of an integer. -/
def PyInt.repr (x : PyInt) : Bytes :=
  (if x.value < 0 then [ch '-'] else []) ++ decText x.value.natAbs ++
    if x.long then [ch 'L'] else []

/-- `repr` of a field that was unpacked from an unsigned number. -/
def reprNat (n : ℕ) : Bytes := (PyInt.ofValue n).repr

/-- `'%#x' % n`. -/
def altHex (n : ℕ) : Bytes := ch '0' :: ch 'x' :: hexText n

/-- `'%02x' % c`. -/
def hexPair (c : UInt8) : Bytes := [hexDigit (c.toNat / 16), hexDigit (c.toNat % 16)]

def singleQuote : UInt8 := 39
def doubleQuote : UInt8 := 34
def backslash : UInt8 := 92

/-- The quote that `repr` chooses: a double one for a string that has single ones only. -/
def reprQuote (s : Bytes) : UInt8 :=
  if singleQuote ∈ s ∧ doubleQuote ∉ s then doubleQuote else singleQuote

/-- One byte of a string between quotes. -/
def escape (quote c : UInt8) : Bytes :=
  if c = quote ∨ c = backslash then [backslash, c]
  else if c = tab then [backslash, ch 't']
  else if c = newline then [backslash, ch 'n']
  else if c = 13 then [backslash, ch 'r']
  else if c < 32 ∨ 127 ≤ c then backslash :: ch 'x' :: hexPair c
  else [c]

/-- `repr(s)` without the quotes around it. -/
def reprBody (s : Bytes) : Bytes := s.flatMap (escape (reprQuote s))

/-- `repr(s)` of a string. -/
def reprStr (s : Bytes) : Bytes := reprQuote s :: reprBody s ++ [reprQuote s]

/-- `str(uuid.UUID(bytes=bs))`. -/
def uuidText (bs : Bytes) : Bytes :=
  let hex := bs.flatMap hexPair
  joinWith (ch '-') [hex.take 8, (hex.drop 8).take 4, (hex.drop 12).take 4, (hex.drop 16).take 4,
    hex.drop 20]

/-- `template % arg` for a template with one conversion `%r`, `%s` or `%#x`. -/
def fill (template : String) (arg : Bytes) : Bytes :=
  let t := ascii template
  t.takeWhile (· ≠ ch '%') ++ arg ++
    ((t.dropWhile (· ≠ ch '%')).tail.dropWhile (· = ch '#')).tail

/-! ## Decimal numerals -/

theorem decDigits_lt {n d : ℕ} (h : d ∈ decDigits n) : d < 10 := by
  unfold decDigits at h
  split_ifs at h with hn
  · rw [List.mem_singleton.mp h]
    norm_num
  · exact Nat.digits_lt_base (by norm_num) (List.mem_reverse.mp h)

theorem decDigits_ne_nil (n : ℕ) : decDigits n ≠ [] := by
  unfold decDigits
  split_ifs with hn
  · simp
  · simpa [Nat.digits_eq_nil_iff_eq_zero] using hn

theorem valueIn_decDigits (n : ℕ) : valueIn 10 (decDigits n) = n := by
  unfold decDigits
  split_ifs with hn
  · simp [valueIn, hn]
  · have h := Nat.ofDigits_digits 10 n
    rw [Nat.ofDigits_eq_foldr] at h
    unfold valueIn
    rw [List.foldl_reverse]
    simpa [Nat.add_comm] using h

theorem isDigit_hexDigit {d : ℕ} (h : d < 10) : isDigit (hexDigit d) = true := by
  interval_cases d <;> decide

theorem isDigit_decText {n : ℕ} {c : UInt8} (h : c ∈ decText n) : isDigit c = true := by
  obtain ⟨d, hd, rfl⟩ := List.mem_map.mp h
  exact isDigit_hexDigit (decDigits_lt hd)

/-- The number that a run of digits spells. -/
def decimalValue (run : Bytes) : ℕ := valueIn 10 (run.map fun c => c.toNat - 48)

theorem decimalValue_decText (n : ℕ) : decimalValue (decText n) = n := by
  have hdigit : ∀ d ∈ decDigits n, (hexDigit d).toNat - 48 = d := by
    intro d hd
    have hlt := decDigits_lt hd
    interval_cases d <;> rfl
  have hdigits : (decText n).map (fun c => c.toNat - 48) = decDigits n := by
    unfold decText
    rw [List.map_map]
    exact (List.map_congr_left hdigit).trans (List.map_id' _)
  rw [decimalValue, hdigits, valueIn_decDigits]

theorem isDigit_range {c : UInt8} (h : isDigit c = true) : 48 ≤ c ∧ c ≤ 57 := by
  simpa [isDigit] using h

theorem digitVal_of_isDigit {c : UInt8} (h : isDigit c = true) :
    digitVal 10 c = some (c.toNat - 48) := by
  have hrange := isDigit_range h
  have hlt : c.toNat - 48 < 10 := by
    have htop : c.toNat ≤ 57 := UInt8.le_iff_toNat_le.mp hrange.2
    omega
  unfold digitVal hexVal
  rw [if_pos hrange]
  simp [hlt]

theorem takeDigits_run {run : Bytes} (h : ∀ c ∈ run, isDigit c = true) :
    takeDigits 10 run = (run.map fun c => c.toNat - 48, []) := by
  induction run with
  | nil => rfl
  | cons c run ih =>
    have hc := digitVal_of_isDigit (h c List.mem_cons_self)
    have hrest := ih fun d hd => h d (List.mem_cons_of_mem c hd)
    simp [takeDigits, hc, hrest]

theorem isDigit_ne {c : UInt8} (h : isDigit c = true) :
    isSpace c = false ∧ c ≠ ch '-' ∧ c ≠ ch '+' := by
  have hhex : isHex c = true := by
    unfold isHex hexVal
    rw [if_pos (isDigit_range h)]
    rfl
  obtain ⟨-, hspace, hminus, hplus, -⟩ := isHex_ne hhex
  exact ⟨hspace, hminus, hplus⟩

theorem int_run {run : Bytes} (hne : run ≠ []) (h : ∀ c ∈ run, isDigit c = true) :
    int 10 run = .ok (PyInt.ofValue (decimalValue run)) := by
  have hfront : run.dropWhile isSpace = run ∧ scanSign run = (false, run) := by
    obtain ⟨c, cs, rfl⟩ := List.exists_cons_of_ne_nil hne
    obtain ⟨hspace, hminus, hplus⟩ := isDigit_ne (h c List.mem_cons_self)
    exact ⟨dropBlanks_cons hspace cs, by simp [scanSign, hminus, hplus]⟩
  have hsuffix (long : Bool) : (dropSuffix long []).dropWhile isSpace = [] := by
    cases long <;> rfl
  have hbase : (10 : ℕ) ≠ 16 := by norm_num
  have hdigits : run.map (fun c => c.toNat - 48) ≠ [] := by simpa using hne
  simp only [int, hfront.1, hfront.2, if_neg hbase, takeDigits_run h, hsuffix, and_true]
  rw [if_pos hdigits]
  rfl

/-! ## What can stand in the text -/

/-- The text stays on its line and has no underscore. -/
def Plain (s : Bytes) : Prop := ∀ c ∈ s, c ≠ newline ∧ c ≠ ch '_'

theorem Plain.append {s t : Bytes} (hs : Plain s) (ht : Plain t) : Plain (s ++ t) := by
  intro c hc
  rcases List.mem_append.mp hc with hc | hc
  · exact hs c hc
  · exact ht c hc

theorem plain_digits {ds : List ℕ} (h : ∀ d ∈ ds, d < 16) : Plain (ds.map hexDigit) := by
  intro c hc
  obtain ⟨d, hd, rfl⟩ := List.mem_map.mp hc
  have hlt := h d hd
  interval_cases d <;> decide

theorem plain_hexPair (c : UInt8) : Plain (hexPair c) := by
  have hdigits : ∀ d ∈ [c.toNat / 16, c.toNat % 16], d < 16 := by
    have hc := c.toNat_lt
    simp only [List.mem_cons, List.not_mem_nil, or_false]
    omega
  exact plain_digits hdigits

theorem plain_reprNat (n : ℕ) : Plain (reprNat n) := by
  have hdigits : Plain (decText n) := plain_digits fun d hd => (decDigits_lt hd).trans (by norm_num)
  have hsuffix (long : Bool) : Plain (if long then [ch 'L'] else []) := by
    cases long <;> simp [Plain, newline, ch]
  exact hdigits.append (hsuffix _)

theorem plain_altHex (n : ℕ) : Plain (altHex n) := by
  have hfront : Plain [ch '0', ch 'x'] := by simp [Plain, newline, ch]
  exact hfront.append (plain_digits fun d hd => hexDigits_lt hd)

theorem plain_uuidText (bs : Bytes) : Plain (uuidText bs) := by
  have hhex : Plain (bs.flatMap hexPair) := by
    intro c hc
    obtain ⟨b, -, hb⟩ := List.mem_flatMap.mp hc
    exact plain_hexPair b c hb
  intro c hc
  rcases mem_joinWith hc with rfl | ⟨part, hpart, hc⟩
  · decide
  · apply hhex
    simp only [List.mem_cons, List.not_mem_nil, or_false] at hpart
    rcases hpart with rfl | rfl | rfl | rfl | rfl
    · exact List.mem_of_mem_take hc
    · exact List.mem_of_mem_drop (List.mem_of_mem_take hc)
    · exact List.mem_of_mem_drop (List.mem_of_mem_take hc)
    · exact List.mem_of_mem_drop (List.mem_of_mem_take hc)
    · exact List.mem_of_mem_drop hc

theorem newline_notMem_reprStr (s : Bytes) : newline ∉ reprStr s := by
  have hquote : reprQuote s ≠ newline := by
    unfold reprQuote
    split_ifs
    · decide
    · decide
  have hback : newline ≠ backslash := by decide
  have hescape (c : UInt8) : newline ∉ escape (reprQuote s) c := by
    unfold escape
    split_ifs with h₁ h₂ h₃ h₄ h₅
    · rcases h₁ with rfl | rfl
      · simp [hback, hquote.symm]
      · simp [hback]
    · simp [newline, backslash, ch]
    · simp [newline, backslash, ch]
    · simp [newline, backslash, ch]
    · intro h
      simp only [List.mem_cons] at h
      rcases h with h | h | h
      · exact absurd h (by decide)
      · exact absurd h (by decide)
      · exact (plain_hexPair c newline h).1 rfl
    · simpa [eq_comm] using h₃
  simp only [reprStr, reprBody, List.cons_append, List.mem_cons, List.mem_append, List.mem_flatMap,
    List.not_mem_nil, or_false]
  rintro (h | ⟨c, -, h⟩ | h)
  · exact hquote h.symm
  · exact hescape c h
  · exact hquote h.symm

end Python
