import DSYMCreator.Tool.StringTable
import DSYMCreator.Tool.SymbolTable
import DSYMCreator.Tool.DwarfSections
import DSYMCreator.Binary.Slices
import DSYMCreator.Binary.RoundUp

/-!
# The symbol file

`Macho<T>::dump` prepares the tables and sections as buffers, fills in the load
commands from running `uint32_t` offsets, and then lays everything down with
appends and resizes. Each block of the source function is a definition here.
-/
namespace DSYMCreator

open Binary Text

namespace Macho

variable {T : AddrType}

def kSymbolTableOffset : BitVec 32 := 0x1000
def kAlignBase : BitVec 32 := 0x1000

/-- `align_to<U>(address, align)` for a `U` of `w` bits. -/
def alignTo {w : ℕ} (address : BitVec w) (align : BitVec 32) : BitVec w :=
  ((address - 1) / align.setWidth w + 1) * align.setWidth w

theorem dvd_modulus {w : ℕ} (hw : 32 ≤ w) {a : BitVec 32} (ha : ∃ k, a.toNat = 2 ^ k) :
    a.toNat ∣ 2 ^ w := by
  obtain ⟨k, hk⟩ := ha
  have hlt : 2 ^ k < 2 ^ 32 := hk ▸ a.isLt
  have hk32 : k < 32 := (Nat.pow_lt_pow_iff_right (by norm_num)).mp hlt
  rw [hk]
  exact pow_dvd_pow 2 (by omega)

/-- For a power of two both wraps of `align_to` cancel. -/
theorem alignTo_toNat {w : ℕ} (hw : 32 ≤ w) (x : BitVec w) {a : BitVec 32}
    (ha : ∃ k, a.toNat = 2 ^ k) :
    (alignTo x a).toNat = roundUp a.toNat x.toNat % 2 ^ w := by
  have hwidth : (a.setWidth w).toNat = a.toNat := by
    rw [BitVec.toNat_setWidth]
    exact Nat.mod_eq_of_lt (a.isLt.trans_le (Nat.pow_le_pow_right (by norm_num) hw))
  have h := toNat_align x (a.setWidth w) (by rw [hwidth]; exact dvd_modulus hw ha)
  rwa [hwidth] at h

theorem kAlignBase_pow : ∃ k, kAlignBase.toNat = 2 ^ k := ⟨12, rfl⟩

/-- The buffers prepared before any command is filled in. -/
structure Buffers where
  strings : ByteBuffer
  symbols : ByteBuffer
  debugLine : ByteBuffer
  debugAbbrev : ByteBuffer
  debugInfo : ByteBuffer

def prepareBuffers (stack : StackContents) (symbols : List (Symbol T)) :
    Except Failure Buffers := do
  let names := symbols.map Symbol.name
  let stringResult ← StringTable.dump names
  let symbolBuffer ← SymbolTable.dump stack symbols stringResult.nameToOffset
  let debugLineBuffer := DwarfDummyDebugLineSection.dump stack
  let debugAbbrevBuffer := DwarfDebugAbbrevSection.dump
  let debugInfoBuffer ← DwarfDebugInfoSection.dump symbols stringResult.nameToOffset
  return ⟨stringResult.buffer, symbolBuffer, debugLineBuffer, debugAbbrevBuffer, debugInfoBuffer⟩

namespace Buffers

variable (b : Buffers)

/-- "prepare symtab command". -/
def symtabCommand (stack : StackContents) (nsyms : ℕ) : SymtabCommand :=
  { SymtabCommand.new (stack .symtabCommand) with
    symoff := kSymbolTableOffset
    nsyms := toU32 nsyms
    stroff := toU32 (kSymbolTableOffset.toNat + b.symbols.length)
    strsize := toU32 b.strings.length }

/-- `dwarf_sections_start_offset`. -/
def dwarfStart : BitVec 32 :=
  let stroff := toU32 (kSymbolTableOffset.toNat + b.symbols.length)
  let strsize := toU32 b.strings.length
  alignTo (stroff + strsize) kAlignBase

/-- The values of `offset` after each `offset += buffer.size()`. -/
def infoOffset : BitVec 32 := b.dwarfStart + toU32 b.debugLine.length
def abbrevOffset : BitVec 32 := b.infoOffset + toU32 b.debugInfo.length
def strOffset : BitVec 32 := b.abbrevOffset + toU32 b.debugAbbrev.length
def endOffset : BitVec 32 := b.strOffset + toU32 b.strings.length

/-- `(uint32_t)buffer.size()`, widened to `T` as the constructor's `length`. -/
def sectionLength (T : AddrType) (buffer : ByteBuffer) : Addr T :=
  (toU32 buffer.length).setWidth _

def debugLineHeader (stack : StackContents) (vmbase : Addr T) : Section T :=
  DwarfCommonSectionHeader.new (stack .debugLineSectionHeader) (ascii "__debug_line") vmbase
    b.dwarfStart (sectionLength T b.debugLine)

def debugInfoHeader (stack : StackContents) (vmbase : Addr T) : Section T :=
  DwarfCommonSectionHeader.new (stack .debugInfoSectionHeader) (ascii "__debug_info") vmbase
    b.infoOffset (sectionLength T b.debugInfo)

def debugAbbrevHeader (stack : StackContents) (vmbase : Addr T) : Section T :=
  DwarfCommonSectionHeader.new (stack .debugAbbrevSectionHeader) (ascii "__debug_abbrev") vmbase
    b.abbrevOffset (sectionLength T b.debugAbbrev)

def debugStrHeader (stack : StackContents) (vmbase : Addr T) : Section T :=
  DwarfCommonSectionHeader.new (stack .debugStrSectionHeader) (ascii "__debug_str") vmbase
    b.strOffset (sectionLength T b.strings)

/-- "prepare dwarf segement command", without its section headers. -/
def dwarfSegmentCommand (stack : StackContents) (vmbase : Addr T) : SegmentCommand T :=
  { DwarfSegmentCommand.new T (stack .dwarfSegmentCommand) with
    vmaddr := vmbase + b.dwarfStart.setWidth _
    fileoff := b.dwarfStart.setWidth _
    filesize := (b.endOffset - b.dwarfStart).setWidth _
    nsects := 4
    cmdsize := toU32 (sizeofSegmentCommand T + 4 * sizeofSection T) }

end Buffers

/-- "prepare text segment command". -/
def textSegmentCommand (T : AddrType) (stack : StackContents) : SegmentCommand T :=
  { TextSegmentCommand.new T (stack .textSegmentCommand) with
    nsects := 1
    cmdsize := toU32 (sizeofSection T + sizeofSegmentCommand T) }

def textSectionHeader (T : AddrType) (stack : StackContents) : Section T :=
  TextSectionHeader.new T (stack .textSectionHeader)

/-- `std::remove` and `erase`: the text without its hyphens. -/
def cleanUuid (uuid : StdString) : StdString := uuid.filter (· ≠ ch '-')

/-- "prepare uuid command": each byte is `strtol` of a two-character slice, narrowed. -/
def uuidCommand (stack : StackContents) (clean : StdString) : UUIDCommand :=
  { UUIDCommand.new (stack .uuidCommand) with
    uuid := Vector.ofFn fun i : Fin 16 =>
      let str := slice clean (2 * i) 2
      UInt8.ofNat (strtol str % 256).toNat }

/-- "prepare mach header". -/
def machHeader (T : AddrType) (stack : StackContents) : MachHeader T :=
  { MachHeader.new T (stack .machHeader) with
    ncmds := 4
    sizeofcmds := toU32
      (sizeofUUIDCommand + sizeofSymtabCommand + sizeofSegmentCommand T + sizeofSection T) }

/-- The commands and section headers, in the order they are written. -/
def commandArea (stack : StackContents) (b : Buffers) (nsyms : ℕ) (vmbase : Addr T)
    (clean : StdString) : ByteBuffer :=
  let buffer := []
  let buffer := appendToBuffer buffer
    (objectBytes (stack .machHeader) (machHeader T stack).members)
  let buffer := appendToBuffer buffer
    (objectBytes (stack .uuidCommand) (uuidCommand stack clean).members)
  let buffer := appendToBuffer buffer
    (objectBytes (stack .symtabCommand) (b.symtabCommand stack nsyms).members)
  let buffer := appendToBuffer buffer
    (objectBytes (stack .textSegmentCommand) (textSegmentCommand T stack).members)
  let buffer := appendToBuffer buffer
    (objectBytes (stack .textSectionHeader) (textSectionHeader T stack).members)
  let buffer := appendToBuffer buffer
    (objectBytes (stack .dwarfSegmentCommand) (b.dwarfSegmentCommand stack vmbase).members)
  let buffer := appendToBuffer buffer
    (objectBytes (stack .debugLineSectionHeader) (b.debugLineHeader stack vmbase).members)
  let buffer := appendToBuffer buffer
    (objectBytes (stack .debugStrSectionHeader) (b.debugStrHeader stack vmbase).members)
  let buffer := appendToBuffer buffer
    (objectBytes (stack .debugAbbrevSectionHeader) (b.debugAbbrevHeader stack vmbase).members)
  appendToBuffer buffer
    (objectBytes (stack .debugInfoSectionHeader) (b.debugInfoHeader stack vmbase).members)

/-- `buffer.resize(n)`: new bytes are zero; a smaller size cuts the buffer. -/
def resize (buffer : ByteBuffer) (n : ℕ) : ByteBuffer :=
  buffer.take n ++ List.replicate (n - buffer.length) 0

/-- The rest of the "write" block: tables and sections behind the commands. -/
def writeFile (commands : ByteBuffer) (b : Buffers) : Except Failure ByteBuffer := do
  cAssert (commands.length ≤ kSymbolTableOffset.toNat) .headerFits
  let buffer := resize commands kSymbolTableOffset.toNat
  let buffer := appendToBuffer buffer b.symbols
  let buffer := appendToBuffer buffer b.strings
  cAssert (buffer.length ≤ b.dwarfStart.toNat) .tablesFit
  let buffer := resize buffer b.dwarfStart.toNat
  let buffer := appendToBuffer buffer b.debugLine
  let buffer := appendToBuffer buffer b.debugInfo
  let buffer := appendToBuffer buffer b.debugAbbrev
  return appendToBuffer buffer b.strings

/-- `Macho<T>::dump`. -/
def dump (stack : StackContents) (uuid : StdString) (symbols : List (Symbol T))
    (sectionVmAddrOffset : Addr T) : Except Failure ByteBuffer := do
  let b ← prepareBuffers stack symbols
  let vmbase := alignTo sectionVmAddrOffset kAlignBase
  let clean := cleanUuid uuid
  cAssert (clean.length = 32) .uuidLength
  writeFile (commandArea stack b symbols.length vmbase clean) b

end Macho
end DSYMCreator
