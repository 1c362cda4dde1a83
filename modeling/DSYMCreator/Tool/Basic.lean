import DSYMCreator.Binary.StructLayout
import DSYMCreator.Text.Numerals
import Mathlib.Data.List.AList

/-!
# Types of the symbol-file writer

The template argument `T` of the source is one of two address types; every
template function is a Lean function of it. Integers are bit vectors of their
C width, strings and buffers are byte lists, and a run ends in a buffer, in a
failed assertion, or in an access outside a buffer.
-/
namespace DSYMCreator

open Binary

/-- The two instances of the template argument `T`. -/
inductive AddrType
  | uint32
  | uint64
  deriving DecidableEq, Repr

namespace AddrType

/-- `sizeof(T)`. -/
def size : AddrType → ℕ
  | uint32 => 4
  | uint64 => 8

/-- The number of bytes of a field that only the 64-bit struct variants have. -/
def only64 : AddrType → ℕ → ℕ
  | uint32, _ => 0
  | uint64, n => n

/-- `std::is_same<T, uint64_t>::value`. -/
def is64 : AddrType → Bool
  | uint32 => false
  | uint64 => true

theorem size_ge (T : AddrType) : 4 ≤ T.size := by cases T <;> decide

end AddrType

/-- A value of type `T`. -/
abbrev Addr (T : AddrType) := BitVec (8 * T.size)

abbrev ByteBuffer := List UInt8

/-- The bytes of a `std::string`. -/
abbrev StdString := List UInt8

structure Symbol (T : AddrType) where
  name : StdString
  base : Addr T
  endAddr : Addr T
  deriving DecidableEq, Repr

/-- `std::map<std::string, uint32_t>`. -/
abbrev NameToOffset := AList fun _ : StdString => BitVec 32

/-- The `assert` calls of the writer, by what they check. -/
inductive Assertion
  | stringTableLength
  | symbolName
  | debugInfoName
  | uuidLength
  | headerFits
  | tablesFit
  deriving DecidableEq, Repr

/-- How a run ends without a result: an assertion fails, or the run reads or
writes outside a buffer, after which the language promises nothing. -/
inductive Failure
  | assertion (a : Assertion)
  | outOfBounds
  deriving DecidableEq, Repr

/-- `assert(p)`. -/
def cAssert (p : Prop) [Decidable p] (a : Assertion) : Except Failure Unit :=
  if p then .ok () else .error (.assertion a)

/-- The local objects of `Macho<T>::dump` and its callees that are copied out as
raw bytes. One `nlist` object is built in each iteration over the symbols. -/
inductive LocalObject
  | nlist (i : ℕ)
  | debugLine
  | symtabCommand
  | textSectionHeader
  | textSegmentCommand
  | debugLineSectionHeader
  | debugInfoSectionHeader
  | debugAbbrevSectionHeader
  | debugStrSectionHeader
  | dwarfSegmentCommand
  | uuidCommand
  | machHeader
  deriving DecidableEq, Repr

/-- What the stack holds where each local object is built, before it is built. -/
abbrev StackContents := LocalObject → RawMemory

/-- `util::append_to_buffer`: the object representation goes to the end. -/
def appendToBuffer (buffer object : ByteBuffer) : ByteBuffer := buffer ++ object

/-- Object representations of the scalar types. -/
def u8Bytes (v : BitVec 8) : ByteBuffer := leBytes 1 v.toNat
def u16Bytes (v : BitVec 16) : ByteBuffer := leBytes 2 v.toNat
def u32Bytes (v : BitVec 32) : ByteBuffer := leBytes 4 v.toNat
def addrBytes (T : AddrType) (v : Addr T) : ByteBuffer := leBytes T.size v.toNat

@[simp] theorem length_u8Bytes (v : BitVec 8) : (u8Bytes v).length = 1 := length_leBytes ..
@[simp] theorem length_u16Bytes (v : BitVec 16) : (u16Bytes v).length = 2 := length_leBytes ..
@[simp] theorem length_u32Bytes (v : BitVec 32) : (u32Bytes v).length = 4 := length_leBytes ..
@[simp] theorem length_addrBytes (T : AddrType) (v : Addr T) : (addrBytes T v).length = T.size :=
  length_leBytes ..

/-- `uint32_t(n)` of a `size_t`. -/
def toU32 (n : ℕ) : BitVec 32 := BitVec.ofNat 32 n

theorem toNat_toU32 (n : ℕ) : (toU32 n).toNat = n % 2 ^ 32 := BitVec.toNat_ofNat ..

theorem toNat_toU32_of_lt {n : ℕ} (h : n < 2 ^ 32) : (toU32 n).toNat = n := by
  rw [toNat_toU32, Nat.mod_eq_of_lt h]

theorem toU32_add (m n : ℕ) : toU32 m + toU32 n = toU32 (m + n) := (BitVec.ofNat_add ..).symm

theorem toNat_setWidth_u32 (T : AddrType) (v : BitVec 32) :
    (v.setWidth (8 * T.size)).toNat = v.toNat := by
  rw [BitVec.toNat_setWidth]
  apply Nat.mod_eq_of_lt
  have hpow : 2 ^ 32 ≤ 2 ^ (8 * T.size) :=
    Nat.pow_le_pow_right (by norm_num) (by have := T.size_ge; omega)
  exact v.isLt.trans_le hpow

/-! ## Runs that may fail -/

section Runs

variable {ε α β : Type}

@[simp] theorem ok_bind (a : α) (f : α → Except ε β) : (Except.ok a >>= f) = f a := rfl

@[simp] theorem error_bind (e : ε) (f : α → Except ε β) : (Except.error e >>= f) = .error e := rfl

theorem bind_eq_ok {x : Except ε α} {f : α → Except ε β} {b : β} :
    (x >>= f) = .ok b ↔ ∃ a, x = .ok a ∧ f a = .ok b := by
  cases x with
  | error e =>
    constructor
    · intro h
      cases h
    · rintro ⟨a, h, -⟩
      cases h
  | ok a => simp

theorem foldlM_cons_eq_ok {f : β → α → Except ε β} {a : α} {as : List α} {b c : β} :
    (a :: as).foldlM f b = .ok c ↔ ∃ b', f b a = .ok b' ∧ as.foldlM f b' = .ok c := by
  rw [List.foldlM_cons, bind_eq_ok]

theorem toOption_eq_some {x : Except ε α} {a : α} : x.toOption = some a ↔ x = .ok a := by
  cases x with
  | error e => simp [Except.toOption]
  | ok b => simp [Except.toOption]

end Runs

@[simp] theorem cAssert_eq_ok {p : Prop} [Decidable p] {a : Assertion} {u : Unit} :
    cAssert p a = .ok u ↔ p := by
  unfold cAssert
  split_ifs with h <;> simp [h]

theorem cAssert_bind_eq_ok {β : Type} {p : Prop} [Decidable p] {a : Assertion}
    {f : Unit → Except Failure β} {b : β} : (cAssert p a >>= f) = .ok b ↔ p ∧ f () = .ok b := by
  rw [bind_eq_ok]
  constructor
  · rintro ⟨_, hp, h⟩
    exact ⟨cAssert_eq_ok.mp hp, h⟩
  · rintro ⟨hp, h⟩
    exact ⟨(), cAssert_eq_ok.mpr hp, h⟩

theorem cAssert_bind_eq_error {β : Type} {p : Prop} [Decidable p] {a : Assertion}
    {f : Unit → Except Failure β} {e : Failure} :
    (cAssert p a >>= f) = .error e ↔ (¬ p ∧ .assertion a = e) ∨ (p ∧ f () = .error e) := by
  by_cases hp : p
  · have hrun : (cAssert p a >>= f) = f () := by
      unfold cAssert
      rw [if_pos hp]
      rfl
    rw [hrun]
    simp [hp]
  · have hrun : (cAssert p a >>= f) = .error (.assertion a) := by
      unfold cAssert
      rw [if_neg hp]
      rfl
    rw [hrun]
    simp [hp]

end DSYMCreator
