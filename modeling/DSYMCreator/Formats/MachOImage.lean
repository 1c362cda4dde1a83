import DSYMCreator.Binary.LittleEndian
import DSYMCreator.Binary.Slices

/-!
# Fields of a Mach-O image by their offsets

An image of either byte order and width, with every field read at the offset that
the format gives it. The segments of an image are those of its `LC_SEGMENT` and
`LC_SEGMENT_64` commands; its strings are the names of segments and sections, the
string table and the names of the symbols.
-/
namespace MachO

open Binary

/-- A file with the byte order and the width that its magic number announces. -/
structure Image where
  file : List UInt8
  isLSB : Bool
  is64Bit : Bool

namespace Image

variable (m : Image)

def bytes (off len : ℕ) : List UInt8 := slice m.file off len

/-- The number in the `len` bytes at an offset. -/
def number (off len : ℕ) : ℕ :=
  leNat (if m.isLSB then m.bytes off len else (m.bytes off len).reverse)

def u32 (off : ℕ) : ℕ := m.number off 4
def u64 (off : ℕ) : ℕ := m.number off 8

/-- The offsets of `n` load commands, each `cmdsize` behind the one before it. -/
def commandsFrom (off : ℕ) : ℕ → List ℕ
  | 0 => []
  | n + 1 => off :: commandsFrom (off + m.u32 (off + 4)) n

def headerSize : ℕ := if m.is64Bit then 32 else 28

/-- The offsets of the load commands. -/
def commands : List ℕ := m.commandsFrom m.headerSize (m.u32 16)

/-- The `vmaddr` and the `vmsize` of a segment command. -/
def segmentRange (wide : Bool) (off : ℕ) : ℕ × ℕ :=
  if wide then (m.u64 (off + 24), m.u64 (off + 32)) else (m.u32 (off + 24), m.u32 (off + 28))

def segmentAt (off : ℕ) : Option (ℕ × ℕ) :=
  if m.u32 off = 1 then some (m.segmentRange false off)
  else if m.u32 off = 25 then some (m.segmentRange true off)
  else none

/-- The address and the size of every segment. -/
def segments : List (ℕ × ℕ) := m.commands.filterMap m.segmentAt

/-- The two names in a section header. -/
def sectionNames (off : ℕ) : List (List UInt8) := [m.bytes off 16, m.bytes (off + 16) 16]

/-- Sizes of `segment_command` and `section`, or of their 64-bit forms. -/
def segmentSize (wide : Bool) : ℕ := if wide then 72 else 56
def sectionSize (wide : Bool) : ℕ := if wide then 80 else 68

/-- The names in the section headers behind a segment command. -/
def segmentSectionNames (wide : Bool) (off : ℕ) : List (List UInt8) :=
  let nsects := m.u32 (off + (segmentSize wide - 8))
  (List.range nsects).flatMap fun i => m.sectionNames (off + segmentSize wide + i * sectionSize wide)

/-- The string table of a `LC_SYMTAB` and the size of an entry of its symbol table. -/
def stringTable (off : ℕ) : List UInt8 := m.bytes (m.u32 (off + 16)) (m.u32 (off + 20))
def nlistSize : ℕ := if m.is64Bit then 16 else 12

/-- The C string at an index. -/
def nameAt (table : List UInt8) (index : ℕ) : List UInt8 := (table.drop index).takeWhile (· ≠ 0)

def symbolNames (off : ℕ) : List (List UInt8) :=
  (List.range (m.u32 (off + 12))).map fun i =>
    nameAt (m.stringTable off) (m.u32 (m.u32 (off + 8) + i * m.nlistSize))

/-- The strings of a load command: names of segments and sections, the string table, and the
names of the symbols. -/
def stringsAt (off : ℕ) : List (List UInt8) :=
  if m.u32 off = 1 then m.bytes (off + 8) 16 :: m.segmentSectionNames false off
  else if m.u32 off = 2 then m.stringTable off :: m.symbolNames off
  else if m.u32 off = 25 then m.bytes (off + 8) 16 :: m.segmentSectionNames true off
  else []

def strings : List (List UInt8) := m.commands.flatMap m.stringsAt

end Image

/-- The image in a file with one of the four magic numbers. -/
def image? (file : List UInt8) : Option Image :=
  if file.take 4 = [0xfe, 0xed, 0xfa, 0xce] then some ⟨file, false, false⟩
  else if file.take 4 = [0xce, 0xfa, 0xed, 0xfe] then some ⟨file, true, false⟩
  else if file.take 4 = [0xfe, 0xed, 0xfa, 0xcf] then some ⟨file, false, true⟩
  else if file.take 4 = [0xcf, 0xfa, 0xed, 0xfe] then some ⟨file, true, true⟩
  else none

end MachO
