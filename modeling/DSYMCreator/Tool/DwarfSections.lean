import DSYMCreator.Tool.MachoTypeWrapper

/-!
# The three generated DWARF sections

The abbreviation table is a constant with two declarations, the info section is
one compile unit with one entry a symbol, and the line section is a header
without a program. `__debug_str` is the string table and has no code of its own.
-/
namespace DSYMCreator

open Binary

/-- Constants of `dwarf.h` that the writer uses. -/
def DW_TAG_compile_unit : ℕ := 0x0011
def DW_TAG_subprogram : ℕ := 0x002e
def DW_LANG_ObjC : ℕ := 0x0010
def DW_AT_name : ℕ := 0x03
def DW_AT_low_pc : ℕ := 0x11
def DW_AT_high_pc : ℕ := 0x12
def DW_AT_language : ℕ := 0x13
def DW_FORM_addr : ℕ := 0x01
def DW_FORM_data2 : ℕ := 0x05
def DW_FORM_strp : ℕ := 0x0e
def DW_CHILDREN_no : ℕ := 0x00
def DW_CHILDREN_yes : ℕ := 0x01

/-- `result.push_back(v)`: the value is narrowed to one byte. -/
def pushBack (result : ByteBuffer) (v : ℕ) : ByteBuffer := result ++ [UInt8.ofNat v]

/-- `DwarfDebugAbbrevSection::dump`. -/
def DwarfDebugAbbrevSection.dump : ByteBuffer :=
  let result := []
  let result := pushBack result 1
  let result := pushBack (pushBack result DW_TAG_compile_unit) DW_CHILDREN_yes
  let result := pushBack (pushBack result DW_AT_language) DW_FORM_data2
  let result := pushBack (pushBack result 0) 0
  let result := pushBack result 2
  let result := pushBack (pushBack result DW_TAG_subprogram) DW_CHILDREN_no
  let result := pushBack (pushBack result DW_AT_low_pc) DW_FORM_addr
  let result := pushBack (pushBack result DW_AT_high_pc) DW_FORM_addr
  let result := pushBack (pushBack result DW_AT_name) DW_FORM_strp
  pushBack (pushBack result 0) 0

namespace DwarfDebugInfoSection

variable {T : AddrType}

/-- One iteration of the loop over the symbols. -/
def appendFunction (nameToOffset : NameToOffset) (buffer : ByteBuffer) (s : Symbol T) :
    Except Failure ByteBuffer := do
  let buffer := appendToBuffer buffer (u8Bytes 2)
  let buffer := appendToBuffer buffer (addrBytes T s.base)
  let buffer := appendToBuffer buffer (addrBytes T s.endAddr)
  let it := nameToOffset.lookup s.name
  cAssert (it ≠ none) .debugInfoName
  return appendToBuffer buffer (u32Bytes (it.getD 0))

/-- `*(uint32_t*)(&buffer[0]) = (uint32_t)(buffer.size() - sizeof(uint32_t))`. -/
def fillLength (buffer : ByteBuffer) : ByteBuffer :=
  u32Bytes (toU32 (buffer.length - 4)) ++ buffer.drop 4

def dump (symbols : List (Symbol T)) (nameToOffset : NameToOffset) :
    Except Failure ByteBuffer := do
  let buffer := []
  -- unit header
  let buffer := appendToBuffer buffer (u32Bytes 0)
  let buffer := appendToBuffer buffer (u16Bytes 2)
  let buffer := appendToBuffer buffer (u32Bytes 0)
  let buffer := appendToBuffer buffer (u8Bytes (BitVec.ofNat 8 T.size))
  -- compile unit entry
  let buffer := appendToBuffer buffer (u8Bytes 1)
  let buffer := appendToBuffer buffer (u16Bytes (BitVec.ofNat 16 DW_LANG_ObjC))
  let buffer ← symbols.foldlM (appendFunction nameToOffset) buffer
  let buffer := appendToBuffer buffer (u8Bytes 0)
  return fillLength buffer

end DwarfDebugInfoSection

namespace DwarfDummyDebugLineSection

/-- The header object after its assignments. Lengths are `sizeof` expressions of the
C++ struct. -/
def header (raw : RawMemory) : DwarfDebugLine :=
  let totalLength := toU32 (sizeofDwarfDebugLine - 4)
  { DwarfDebugLine.ofMemory raw with
    totalLength := totalLength
    version := 2
    prologueLength := totalLength - 2 - 4
    minInstLength := 1
    defaultIsStmt := 1
    lineBase := 0
    lineRange := 0
    opcodeBase := 1 }

/-- `memset` clears the whole object, padding included, before the assignments. -/
def dump (stack : StackContents) : ByteBuffer :=
  let _before := stack .debugLine
  let cleared : RawMemory := fun _ => 0
  appendToBuffer [] (objectBytes cleared (header cleared).members)

end DwarfDummyDebugLineSection
end DSYMCreator
