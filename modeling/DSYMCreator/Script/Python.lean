import DSYMCreator.Text.Lines
import DSYMCreator.Text.HexNumeral

/-!
# Integers and text of Python 2

A Python 2 integer is a machine word or a `long`; arithmetic turns a word into a
`long` when it overflows and never back. `hex` marks a `long` with an `L`, which
is the only place where the difference shows in text.
-/
namespace Python

open Text

/-- `-sys.maxint - 1` to `sys.maxint` on a 64-bit build. -/
def InWord (v : ℤ) : Prop := -2 ^ 63 ≤ v ∧ v < 2 ^ 63

instance (v : ℤ) : Decidable (InWord v) := inferInstanceAs (Decidable (_ ∧ _))

/-- An `int` or a `long`. -/
structure PyInt where
  value : ℤ
  long : Bool
  fits : long = false → InWord value

namespace PyInt

/-- The `int` of a value, or the `long` when it does not fit. -/
def ofValue (v : ℤ) : PyInt where
  value := v
  long := !decide (InWord v)
  fits := by simp

def add (a b : PyInt) : PyInt where
  value := a.value + b.value
  long := a.long || b.long || !decide (InWord (a.value + b.value))
  fits := by simp

def sub (a b : PyInt) : PyInt where
  value := a.value - b.value
  long := a.long || b.long || !decide (InWord (a.value - b.value))
  fits := by simp

instance : Add PyInt := ⟨add⟩
instance : Sub PyInt := ⟨sub⟩

@[simp] theorem value_ofValue (v : ℤ) : (ofValue v).value = v := rfl

@[simp] theorem value_add (a b : PyInt) : (a + b).value = a.value + b.value := rfl

@[simp] theorem value_sub (a b : PyInt) : (a - b).value = a.value - b.value := rfl

/-- `hex(x)`. -/
def hex (x : PyInt) : Bytes :=
  (if x.value < 0 then [ch '-'] else []) ++ ch '0' :: ch 'x' :: hexText x.value.natAbs ++
    if x.long then [ch 'L'] else []

end PyInt

/-- The exceptions that the scripts can run into. -/
inductive Error
  | valueError
  | indexError
  deriving DecidableEq, Repr

/-- The value of a digit in a base up to 16. -/
def digitVal (base : ℕ) (c : UInt8) : Option ℕ :=
  match hexVal c with
  | some d => if d < base then some d else none
  | none => none

/-- The longest prefix of digits, and the rest. -/
def takeDigits (base : ℕ) : Bytes → List ℕ × Bytes
  | [] => ([], [])
  | c :: cs =>
    match digitVal base c with
    | some d =>
      let (ds, rest) := takeDigits base cs
      (d :: ds, rest)
    | none => ([], c :: cs)

/-- The number that digits spell in a base. -/
def valueIn (base : ℕ) (ds : List ℕ) : ℕ := ds.foldl (fun acc d => base * acc + d) 0

/-- Only the parser of `long` lets an `L` stand behind the digits. -/
def dropSuffix (long : Bool) (rest : Bytes) : Bytes :=
  match long, rest with
  | true, c :: cs => if c = ch 'L' ∨ c = ch 'l' then cs else c :: cs
  | _, rest => rest

/-- `int(s, base)`: blanks, a sign, the prefix of base 16, digits and blanks. -/
def int (base : ℕ) (s : Bytes) : Except Error PyInt :=
  let (negative, unsigned) := scanSign (s.dropWhile isSpace)
  let (ds, rest) := takeDigits base (if base = 16 then skipPrefix unsigned else unsigned)
  let v : ℤ := if negative then -(valueIn base ds : ℤ) else valueIn base ds
  let n := PyInt.ofValue v
  if ds ≠ [] ∧ (dropSuffix n.long rest).dropWhile isSpace = [] then .ok n else .error .valueError

/-- `a, b = parts` of a list. -/
def unpack2 (parts : List Bytes) : Except Error (Bytes × Bytes) :=
  match parts with
  | [a, b] => .ok (a, b)
  | _ => .error .valueError

/-- `a, b = s.split(sep, 1)`. -/
def unpackSplit (sep : UInt8) (s : Bytes) : Except Error (Bytes × Bytes) :=
  match splitFirst sep s with
  | some p => .ok p
  | none => .error .valueError

/-! ## Digits -/

theorem takeDigits_digits {ds : List ℕ} (h : ∀ d ∈ ds, d < 16) :
    takeDigits 16 (ds.map hexDigit) = (ds, []) := by
  induction ds with
  | nil => rfl
  | cons d ds ih =>
    have hd := h d List.mem_cons_self
    have hrest := ih fun e he => h e (List.mem_cons_of_mem d he)
    simp [takeDigits, digitVal, hexVal_hexDigit hd, hd, hrest]

theorem int_digits {ds : List ℕ} (hne : ds ≠ []) (h : ∀ d ∈ ds, d < 16) :
    int 16 (ds.map hexDigit) = .ok (PyInt.ofValue (ofDigits ds)) := by
  have hblanks : (ds.map hexDigit).dropWhile isSpace = ds.map hexDigit := by
    obtain ⟨d, ds', rfl⟩ := List.exists_cons_of_ne_nil hne
    have hd := (hexDigit_ne (h d List.mem_cons_self)).2.1
    rw [List.map_cons, List.dropWhile_cons_of_neg (by simp [hd])]
  have hsuffix (long : Bool) : (dropSuffix long []).dropWhile isSpace = [] := by
    cases long <;> rfl
  simp only [int, hblanks, scanSign_digits h, if_true, skipPrefix_digits h, takeDigits_digits h,
    hsuffix, and_true]
  rw [if_pos hne]
  rfl

/-! ## Numbers handed to a C++ program -/

theorem PyInt.mem_hex {x : PyInt} {c : UInt8} (h : c ∈ x.hex) :
    c ≠ 0 ∧ isSpace c = false ∧ c < 128 := by
  simp only [PyInt.hex, hexText, List.mem_append, List.mem_cons, List.mem_map] at h
  rcases h with (h | rfl | rfl | ⟨d, hd, rfl⟩) | h
  · split_ifs at h
    · obtain rfl := List.mem_singleton.mp h
      decide
    · cases h
  · decide
  · decide
  · have hlt := hexDigits_lt hd
    interval_cases d <;> decide
  · split_ifs at h
    · obtain rfl := List.mem_singleton.mp h
      decide
    · cases h

/-- What a C program scans from the text: the `L` of a `long` does not disturb it. -/
theorem PyInt.scanHex_hex (x : PyInt) :
    scanHex x.hex = some ⟨decide (x.value < 0), x.value.natAbs⟩ := by
  have hsuffix : (if x.long then [ch 'L'] else []) = [] ∨
      (if x.long then [ch 'L'] else []) = [ch 'L'] := by
    cases x.long with
    | false => exact .inl rfl
    | true => exact .inr rfl
  have hscan := scanHex_of_hexNumeral (hexNumeral_hexText x.value.natAbs hsuffix)
  by_cases hneg : x.value < 0
  · have htext : x.hex = ch '-' :: ch '0' :: ch 'x' ::
        (hexText x.value.natAbs ++ if x.long then [ch 'L'] else []) := by
      simp [PyInt.hex, hneg]
    rw [htext, scanHex_minus, hscan, decide_eq_true hneg]
    rfl
  · have htext : x.hex = ch '0' :: ch 'x' ::
        (hexText x.value.natAbs ++ if x.long then [ch 'L'] else []) := by
      simp [PyInt.hex, hneg]
    rw [htext, hscan, decide_eq_false hneg]

/-- `stoull` wraps the number to 64 bits, or throws when its magnitude has more. -/
theorem stoull_hex (x : PyInt) :
    stoull x.hex =
      if 2 ^ 64 ≤ x.value.natAbs then .error .outOfRange else .ok (BitVec.ofInt 64 x.value) :=
  stoull_of_scanHex x.scanHex_hex

end Python
