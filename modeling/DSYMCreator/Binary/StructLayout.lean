import DSYMCreator.Binary.LittleEndian

/-!
# Object representations of C structs

An object occupies bytes that held something before it was built. Members sit
at multiples of their alignment; the bytes between them, and those that round
the size up to the struct's own alignment, are never written, so they keep the
contents of the memory underneath. `Packed` member lists have no such byte.
-/
namespace Binary

/-- The bytes an object's memory held before the object was written, by offset. -/
abbrev RawMemory := ℕ → UInt8

/-- One member of a struct: its alignment and its object representation. -/
structure Member where
  align : ℕ
  bytes : List UInt8

/-- The bytes skipped at offset `n` to reach a multiple of `a`. -/
def gap (a n : ℕ) : ℕ := (a - n % a) % a

/-- `len` bytes of the memory underneath, from offset `off` on. -/
def RawMemory.range (raw : RawMemory) (off len : ℕ) : List UInt8 := (List.range' off len).map raw

/-- The value of a scalar that was never assigned: whatever bytes lie there. -/
def RawMemory.load (raw : RawMemory) (off size : ℕ) : ℕ := leNat (raw.range off size)

namespace Member

/-- A scalar of `size` bytes, aligned to its size. -/
def scalar {w : ℕ} (size : ℕ) (v : BitVec w) : Member := ⟨size, leBytes size v.toNat⟩

/-- An array of bytes has no alignment requirement. -/
def array {n : ℕ} (v : Vector UInt8 n) : Member := ⟨1, v.toList⟩

@[simp] theorem length_scalar {w : ℕ} (size : ℕ) (v : BitVec w) :
    (scalar size v).bytes.length = size := by simp [scalar]

@[simp] theorem length_array {n : ℕ} (v : Vector UInt8 n) : (array v).bytes.length = n := by
  simp [array]

@[simp] theorem align_scalar {w : ℕ} (size : ℕ) (v : BitVec w) : (scalar size v).align = size := rfl

@[simp] theorem align_array {n : ℕ} (v : Vector UInt8 n) : (array v).align = 1 := rfl

end Member

/-- The members from offset `off` on, each preceded by the gap its alignment asks for. -/
def layoutFrom (raw : RawMemory) : ℕ → List Member → List UInt8
  | _, [] => []
  | off, m :: ms =>
    let pad := gap m.align off
    raw.range off pad ++ m.bytes ++ layoutFrom raw (off + pad + m.bytes.length) ms

/-- The strictest alignment among the members. -/
def structAlign (ms : List Member) : ℕ := ms.foldr (fun m a => max m.align a) 1

/-- The whole object: the members and the tail padding. -/
def objectBytes (raw : RawMemory) (ms : List Member) : List UInt8 :=
  let body := layoutFrom raw 0 ms
  body ++ raw.range body.length (gap (structAlign ms) body.length)

/-- `sizeof` of a struct with these members. -/
def structSize (ms : List Member) : ℕ := (objectBytes (fun _ => 0) ms).length

/-- Every member, placed from `off` on, is aligned where the previous one ends. -/
def PackedFrom : ℕ → List Member → Prop
  | _, [] => True
  | off, m :: ms => gap m.align off = 0 ∧ PackedFrom (off + m.bytes.length) ms

/-- No gap between the members and none behind the last one. -/
def Packed (ms : List Member) : Prop :=
  PackedFrom 0 ms ∧ gap (structAlign ms) (ms.map fun m => m.bytes.length).sum = 0

theorem layoutFrom_of_packed (raw : RawMemory) {off : ℕ} {ms : List Member}
    (h : PackedFrom off ms) : layoutFrom raw off ms = ms.flatMap Member.bytes := by
  induction ms generalizing off with
  | nil => rfl
  | cons m ms ih =>
    obtain ⟨hgap, hrest⟩ := h
    simp [layoutFrom, hgap, RawMemory.range, ih hrest]

/-- A packed object is its members' bytes and nothing else, whatever lay underneath. -/
theorem objectBytes_of_packed (raw : RawMemory) {ms : List Member} (h : Packed ms) :
    objectBytes raw ms = ms.flatMap Member.bytes := by
  simp [objectBytes, layoutFrom_of_packed raw h.1, h.2, RawMemory.range]

end Binary
