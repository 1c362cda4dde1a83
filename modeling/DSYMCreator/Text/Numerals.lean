import Mathlib.Data.Nat.Digits.Defs
import Mathlib.Tactic

/-!
# Hexadecimal numerals as text

Text is a list of bytes. Numbers are spelled with lower-case digits, most
significant first, and read with the scanner of the C library: blanks, a sign
and a `0x` prefix are skipped, and the digits are the longest prefix there is.
Digit strings of one length are ordered as bytes exactly as they are ordered as
numbers.
-/
namespace Text

abbrev Bytes := List UInt8

/-- The byte of an ASCII character. -/
def ch (c : Char) : UInt8 := c.toNat.toUInt8

/-- The bytes of an ASCII string literal. -/
def ascii (s : String) : Bytes := s.toList.map ch

/-- `isspace` in the C locale: a blank, or one of the control characters 9 to 13. -/
def isSpace (c : UInt8) : Bool := c == 32 || (9 ≤ c && c ≤ 13)

/-- The value of a digit in base 16, of either case. -/
def hexVal (c : UInt8) : Option ℕ :=
  if 48 ≤ c ∧ c ≤ 57 then some (c.toNat - 48)
  else if 97 ≤ c ∧ c ≤ 102 then some (c.toNat - 87)
  else if 65 ≤ c ∧ c ≤ 70 then some (c.toNat - 55)
  else none

def isHex (c : UInt8) : Bool := (hexVal c).isSome

/-- The lower-case digit of a value below 16. -/
def hexDigit (d : ℕ) : UInt8 := UInt8.ofNat (if d < 10 then 48 + d else 87 + d)

theorem hexVal_hexDigit {d : ℕ} (h : d < 16) : hexVal (hexDigit d) = some d := by
  interval_cases d <;> decide

theorem isHex_hexDigit {d : ℕ} (h : d < 16) : isHex (hexDigit d) = true := by
  simp [isHex, hexVal_hexDigit h]

theorem hexDigit_lt_iff {d e : ℕ} (hd : d < 16) (he : e < 16) :
    hexDigit d < hexDigit e ↔ d < e := by
  interval_cases d <;> interval_cases e <;> decide

/-- The number that digits spell, most significant first. -/
def ofDigits (ds : List ℕ) : ℕ := ds.foldl (fun acc d => 16 * acc + d) 0

theorem foldl_digits (acc : ℕ) (ds : List ℕ) :
    ds.foldl (fun acc d => 16 * acc + d) acc = acc * 16 ^ ds.length + ofDigits ds := by
  induction ds generalizing acc with
  | nil => simp [ofDigits]
  | cons d ds ih =>
    have hcons : ofDigits (d :: ds) = (16 * 0 + d) * 16 ^ ds.length + ofDigits ds := ih _
    rw [List.foldl_cons, ih, hcons, List.length_cons, pow_succ]
    ring

theorem ofDigits_cons (d : ℕ) (ds : List ℕ) :
    ofDigits (d :: ds) = d * 16 ^ ds.length + ofDigits ds := by
  rw [ofDigits, List.foldl_cons, foldl_digits]
  simp

theorem ofDigits_lt {ds : List ℕ} (h : ∀ d ∈ ds, d < 16) : ofDigits ds < 16 ^ ds.length := by
  induction ds with
  | nil => simp [ofDigits]
  | cons d ds ih =>
    have hd := h d List.mem_cons_self
    have ih' := ih fun e he => h e (List.mem_cons_of_mem d he)
    rw [ofDigits_cons, List.length_cons, pow_succ]
    nlinarith

/-- The digits of a number, most significant first; zero has one digit. -/
def hexDigits (n : ℕ) : List ℕ := if n = 0 then [0] else (Nat.digits 16 n).reverse

theorem hexDigits_lt {n d : ℕ} (h : d ∈ hexDigits n) : d < 16 := by
  unfold hexDigits at h
  split_ifs at h with hn
  · simp only [List.mem_singleton] at h
    omega
  · exact Nat.digits_lt_base (by norm_num) (List.mem_reverse.mp h)

theorem hexDigits_ne_nil (n : ℕ) : hexDigits n ≠ [] := by
  unfold hexDigits
  split_ifs with hn
  · simp
  · simpa [Nat.digits_eq_nil_iff_eq_zero] using hn

theorem ofDigits_hexDigits (n : ℕ) : ofDigits (hexDigits n) = n := by
  unfold hexDigits
  split_ifs with hn
  · simp [ofDigits, hn]
  · have h := Nat.ofDigits_digits 16 n
    rw [Nat.ofDigits_eq_foldr] at h
    unfold ofDigits
    rw [List.foldl_reverse]
    simpa [Nat.add_comm] using h

/-- The lower-case spelling of a number. -/
def hexText (n : ℕ) : Bytes := (hexDigits n).map hexDigit

/-- The values of the longest prefix of digits. -/
def digitPrefix : Bytes → List ℕ
  | [] => []
  | c :: cs =>
    match hexVal c with
    | some d => d :: digitPrefix cs
    | none => []

/-- The prefix ends where the digits end: at the end of the text or at another character. -/
theorem digitPrefix_append {digits : Bytes} (h : ∀ c ∈ digits, isHex c = true) {rest : Bytes}
    (hrest : ∀ c, rest.head? = some c → isHex c = false) :
    digitPrefix (digits ++ rest) = digits.filterMap hexVal := by
  induction digits with
  | nil =>
    cases rest with
    | nil => rfl
    | cons c cs =>
      have hc := hrest c rfl
      simp only [isHex, Option.isSome_eq_false_iff, Option.isNone_iff_eq_none] at hc
      simp [digitPrefix, hc]
  | cons c cs ih =>
    obtain ⟨d, hd⟩ := Option.isSome_iff_exists.mp (h c List.mem_cons_self)
    have hcs := ih fun e he => h e (List.mem_cons_of_mem c he)
    rw [List.cons_append, digitPrefix, hd, List.filterMap_cons, hd]
    simp [hcs]

/-- What a conversion of the `strtol` family sees: a sign and a magnitude. -/
structure Scanned where
  negative : Bool
  magnitude : ℕ
  deriving DecidableEq, Repr

/-- An optional sign in front of the rest. -/
def scanSign : Bytes → Bool × Bytes
  | [] => (false, [])
  | c :: cs =>
    if c = ch '-' then (true, cs)
    else if c = ch '+' then (false, cs)
    else (false, c :: cs)

/-- `0x` or `0X` is a prefix only when a digit follows it. -/
def skipPrefix : Bytes → Bytes
  | z :: x :: d :: cs =>
    if z = ch '0' ∧ (x = ch 'x' ∨ x = ch 'X') ∧ isHex d then d :: cs else z :: x :: d :: cs
  | cs => cs

/-- The subject sequence of `strtol(s, &end, 16)` on the C string in `s`; `none` when
no conversion can be performed. -/
def scanHex (s : Bytes) : Option Scanned :=
  let blankFree := (s.takeWhile (· ≠ 0)).dropWhile isSpace
  let (negative, unsigned) := scanSign blankFree
  match digitPrefix (skipPrefix unsigned) with
  | [] => none
  | ds => some ⟨negative, ofDigits ds⟩

/-- `strtol(s, NULL, 16)` with a 64-bit `long`. -/
def strtol (s : Bytes) : ℤ :=
  match scanHex s with
  | none => 0
  | some ⟨negative, m⟩ =>
    let v : ℤ := if negative then -m else m
    max (-2 ^ 63) (min v (2 ^ 63 - 1))

/-- The exceptions of `std::stoul` and `std::stoull`. -/
inductive ConversionError
  | invalidArgument
  | outOfRange
  deriving DecidableEq, Repr

/-- `std::stoull(s, nullptr, 16)`: a negated value wraps to 64 bits. -/
def stoull (s : Bytes) : Except ConversionError (BitVec 64) :=
  match scanHex s with
  | none => .error .invalidArgument
  | some ⟨negative, m⟩ =>
    if 2 ^ 64 ≤ m then .error .outOfRange
    else .ok (if negative then -BitVec.ofNat 64 m else BitVec.ofNat 64 m)

/-! ## Scanning what was spelled -/

theorem hexDigit_ne {d : ℕ} (h : d < 16) : hexDigit d ≠ 0 ∧ isSpace (hexDigit d) = false ∧
    hexDigit d ≠ ch '-' ∧ hexDigit d ≠ ch '+' ∧ hexDigit d ≠ ch 'x' ∧ hexDigit d ≠ ch 'X' := by
  interval_cases d <;> decide

theorem skipPrefix_digits {ds : List ℕ} (h : ∀ d ∈ ds, d < 16) :
    skipPrefix (ds.map hexDigit) = ds.map hexDigit := by
  rcases ds with _ | ⟨z, _ | ⟨x, _ | ⟨d, ds⟩⟩⟩
  · rfl
  · rfl
  · rfl
  · obtain ⟨-, -, -, -, hx, hX⟩ := hexDigit_ne (h x (by simp))
    simp [skipPrefix, hx, hX]

theorem scanSign_digits {ds : List ℕ} (h : ∀ d ∈ ds, d < 16) :
    scanSign (ds.map hexDigit) = (false, ds.map hexDigit) := by
  cases ds with
  | nil => rfl
  | cons d ds =>
    obtain ⟨-, -, hminus, hplus, -⟩ := hexDigit_ne (h d List.mem_cons_self)
    simp [scanSign, hminus, hplus]

theorem scanSign_minus (cs : Bytes) : scanSign (ch '-' :: cs) = (true, cs) := rfl

theorem scanSign_zero (cs : Bytes) : scanSign (ch '0' :: cs) = (false, ch '0' :: cs) := by
  have hminus : ch '0' ≠ ch '-' := by decide
  have hplus : ch '0' ≠ ch '+' := by decide
  simp [scanSign, hminus, hplus]

theorem dropBlanks_cons {c : UInt8} (hc : isSpace c = false) (cs : Bytes) :
    (c :: cs).dropWhile isSpace = c :: cs := by
  rw [List.dropWhile_cons_of_neg (by simp [hc])]

theorem scanHex_minus (cs : Bytes) :
    scanHex (ch '-' :: ch '0' :: cs) =
      (scanHex (ch '0' :: cs)).map fun n => { n with negative := true } := by
  have hcut {c : UInt8} (hc : c ≠ 0) (ds : Bytes) :
      (c :: ds).takeWhile (· ≠ 0) = c :: ds.takeWhile (· ≠ 0) :=
    List.takeWhile_cons_of_pos (by simpa using hc)
  have hminus : ch '-' ≠ 0 := by decide
  have hzero : ch '0' ≠ 0 := by decide
  have hminusBlank : isSpace (ch '-') = false := by decide
  have hzeroBlank : isSpace (ch '0') = false := by decide
  simp only [scanHex, hcut hminus, hcut hzero, dropBlanks_cons hminusBlank,
    dropBlanks_cons hzeroBlank, scanSign_minus, scanSign_zero]
  cases digitPrefix (skipPrefix (ch '0' :: cs.takeWhile (· ≠ 0))) with
  | nil => rfl
  | cons d ds => rfl

/-- `stoull` wraps every number whose magnitude has 64 bits, negative numbers included. -/
theorem stoull_of_scanHex {s : Bytes} {v : ℤ} (h : scanHex s = some ⟨decide (v < 0), v.natAbs⟩) :
    stoull s = if 2 ^ 64 ≤ v.natAbs then .error .outOfRange else .ok (BitVec.ofInt 64 v) := by
  have hvalue : (if decide (v < 0) = true then -BitVec.ofNat 64 v.natAbs
      else BitVec.ofNat 64 v.natAbs) = BitVec.ofInt 64 v := by
    by_cases hneg : v < 0
    · rw [if_pos (by simpa using hneg), ← BitVec.ofInt_natCast, ← BitVec.ofInt_neg]
      congr 1
      omega
    · rw [if_neg (by simpa using hneg), ← BitVec.ofInt_natCast]
      congr 1
      omega
  simp only [stoull, h, hvalue]

end Text
