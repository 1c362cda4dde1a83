import DSYMCreator.Tool.Basic

/-!
# Mach-O structs and their constructors

The structs of `mach-o/loader.h` and `mach-o/nlist.h` with the constructors of
`macho_type_wrapper.h`. A 32-bit and a 64-bit struct variant differ in the width
of the address fields and in reserved fields of the 64-bit variant alone, which
have width zero in the other. An object starts as the memory it is built in
(`ofMemory`); a constructor then assigns the fields the source assigns.
-/
namespace DSYMCreator

open Binary Text

/-- Constants of the format headers and of the system's machine headers. -/
def MH_MAGIC : BitVec 32 := 0xfeedface
def MH_MAGIC_64 : BitVec 32 := 0xfeedfacf
def MH_DSYM : BitVec 32 := 0xa
def CPU_TYPE_ARM : BitVec 32 := 12
def CPU_TYPE_ARM64 : BitVec 32 := 0x0100000c
def CPU_SUBTYPE_ARM_V7 : BitVec 32 := 9
def CPU_SUBTYPE_ARM64_ALL : BitVec 32 := 0
def LC_SEGMENT : BitVec 32 := 0x1
def LC_SYMTAB : BitVec 32 := 0x2
def LC_SEGMENT_64 : BitVec 32 := 0x19
def LC_UUID : BitVec 32 := 0x1b
def VM_PROT_READ : BitVec 32 := 0x1
def VM_PROT_EXECUTE : BitVec 32 := 0x4
def N_SECT : BitVec 8 := 0xe
def N_ARM_THUMB_DEF : BitVec 16 := 0x0008

/-- A field of `size` bytes that still holds what the memory held. -/
def field (raw : RawMemory) (off size : ℕ) {w : ℕ} : BitVec w := BitVec.ofNat w (raw.load off size)

/-- A byte array that still holds what the memory held. -/
def arrayField (raw : RawMemory) (off n : ℕ) : Vector UInt8 n := Vector.ofFn fun i => raw (off + i)

/-- `memset(dst, 0, n)` on a whole array of `n` bytes. -/
def memset0 (n : ℕ) : Vector UInt8 n := Vector.replicate n 0

/-- `memcpy(dst, src, src.size())` into the front of an array that is long enough. -/
def memcpyFront {n : ℕ} (dst : Vector UInt8 n) (src : StdString) : Vector UInt8 n :=
  Vector.ofFn fun i => src.getD i dst[i]

/-- `struct nlist`, `struct nlist_64`. -/
structure Nlist (T : AddrType) where
  nStrx : BitVec 32
  nType : BitVec 8
  nSect : BitVec 8
  nDesc : BitVec 16
  nValue : Addr T

namespace Nlist

variable {T : AddrType}

def ofMemory (T : AddrType) (raw : RawMemory) : Nlist T :=
  ⟨field raw 0 4, field raw 4 1, field raw 5 1, field raw 6 2, field raw 8 T.size⟩

def members (n : Nlist T) : List Member :=
  [.scalar 4 n.nStrx, .scalar 1 n.nType, .scalar 1 n.nSect, .scalar 2 n.nDesc,
   .scalar T.size n.nValue]

end Nlist

/-- `struct mach_header`, `struct mach_header_64`. -/
structure MachHeader (T : AddrType) where
  magic : BitVec 32
  cputype : BitVec 32
  cpusubtype : BitVec 32
  filetype : BitVec 32
  ncmds : BitVec 32
  sizeofcmds : BitVec 32
  flags : BitVec 32
  reserved : BitVec (8 * T.only64 4)

namespace MachHeader

variable {T : AddrType}

def ofMemory (T : AddrType) (raw : RawMemory) : MachHeader T :=
  ⟨field raw 0 4, field raw 4 4, field raw 8 4, field raw 12 4, field raw 16 4, field raw 20 4,
   field raw 24 4, field raw 28 (T.only64 4)⟩

def members (h : MachHeader T) : List Member :=
  [.scalar 4 h.magic, .scalar 4 h.cputype, .scalar 4 h.cpusubtype, .scalar 4 h.filetype,
   .scalar 4 h.ncmds, .scalar 4 h.sizeofcmds, .scalar 4 h.flags, .scalar (T.only64 4) h.reserved]

/-- `MachHeader32()` and `MachHeader64()`. -/
def new : (T : AddrType) → RawMemory → MachHeader T
  | .uint32, raw =>
    { ofMemory .uint32 raw with
      magic := MH_MAGIC
      cputype := CPU_TYPE_ARM
      cpusubtype := CPU_SUBTYPE_ARM_V7
      filetype := MH_DSYM
      flags := 0 }
  | .uint64, raw =>
    { ofMemory .uint64 raw with
      magic := MH_MAGIC_64
      cputype := CPU_TYPE_ARM64
      cpusubtype := CPU_SUBTYPE_ARM64_ALL
      filetype := MH_DSYM
      flags := 0 }

end MachHeader

/-- `struct uuid_command`. -/
structure UUIDCommand where
  cmd : BitVec 32
  cmdsize : BitVec 32
  uuid : Vector UInt8 16

namespace UUIDCommand

def ofMemory (raw : RawMemory) : UUIDCommand :=
  ⟨field raw 0 4, field raw 4 4, arrayField raw 8 16⟩

def members (c : UUIDCommand) : List Member :=
  [.scalar 4 c.cmd, .scalar 4 c.cmdsize, .array c.uuid]

/-- `UUIDCommand()`. -/
def new (raw : RawMemory) : UUIDCommand :=
  { ofMemory raw with
    cmd := LC_UUID
    cmdsize := 24 }

end UUIDCommand

/-- `struct symtab_command`. -/
structure SymtabCommand where
  cmd : BitVec 32
  cmdsize : BitVec 32
  symoff : BitVec 32
  nsyms : BitVec 32
  stroff : BitVec 32
  strsize : BitVec 32

namespace SymtabCommand

def ofMemory (raw : RawMemory) : SymtabCommand :=
  ⟨field raw 0 4, field raw 4 4, field raw 8 4, field raw 12 4, field raw 16 4, field raw 20 4⟩

def members (c : SymtabCommand) : List Member :=
  [.scalar 4 c.cmd, .scalar 4 c.cmdsize, .scalar 4 c.symoff, .scalar 4 c.nsyms,
   .scalar 4 c.stroff, .scalar 4 c.strsize]

/-- `SymtabCommand()`. -/
def new (raw : RawMemory) : SymtabCommand :=
  { ofMemory raw with
    cmd := LC_SYMTAB
    cmdsize := 24 }

end SymtabCommand

/-- `struct segment_command`, `struct segment_command_64`. -/
structure SegmentCommand (T : AddrType) where
  cmd : BitVec 32
  cmdsize : BitVec 32
  segname : Vector UInt8 16
  vmaddr : Addr T
  vmsize : Addr T
  fileoff : Addr T
  filesize : Addr T
  maxprot : BitVec 32
  initprot : BitVec 32
  nsects : BitVec 32
  flags : BitVec 32

namespace SegmentCommand

variable {T : AddrType}

def ofMemory (T : AddrType) (raw : RawMemory) : SegmentCommand T :=
  let s := T.size
  ⟨field raw 0 4, field raw 4 4, arrayField raw 8 16, field raw 24 s, field raw (24 + s) s,
   field raw (24 + 2 * s) s, field raw (24 + 3 * s) s, field raw (24 + 4 * s) 4,
   field raw (28 + 4 * s) 4, field raw (32 + 4 * s) 4, field raw (36 + 4 * s) 4⟩

def members (c : SegmentCommand T) : List Member :=
  [.scalar 4 c.cmd, .scalar 4 c.cmdsize, .array c.segname, .scalar T.size c.vmaddr,
   .scalar T.size c.vmsize, .scalar T.size c.fileoff, .scalar T.size c.filesize,
   .scalar 4 c.maxprot, .scalar 4 c.initprot, .scalar 4 c.nsects, .scalar 4 c.flags]

/-- `internal::SegmentCommand<T>()`. -/
def new (T : AddrType) (raw : RawMemory) : SegmentCommand T :=
  { ofMemory T raw with
    cmd := if T.is64 then LC_SEGMENT_64 else LC_SEGMENT
    vmsize := 0
    fileoff := 0
    filesize := 0
    initprot := VM_PROT_READ ||| VM_PROT_EXECUTE
    maxprot := VM_PROT_READ ||| VM_PROT_EXECUTE
    flags := 0 }

end SegmentCommand

/-- `TextSegmentCommand<T>()`. -/
def TextSegmentCommand.new (T : AddrType) (raw : RawMemory) : SegmentCommand T :=
  { SegmentCommand.new T raw with
    segname := memcpyFront (memset0 16) (ascii "__TEXT")
    vmaddr := if T.is64 then 0x100000000 else 0x4000 }

/-- `DwarfSegmentCommand<T>()`. -/
def DwarfSegmentCommand.new (T : AddrType) (raw : RawMemory) : SegmentCommand T :=
  { SegmentCommand.new T raw with
    segname := memcpyFront (memset0 16) (ascii "__DWARF") }

/-- `struct section`, `struct section_64`. -/
structure Section (T : AddrType) where
  sectname : Vector UInt8 16
  segname : Vector UInt8 16
  addr : Addr T
  size : Addr T
  offset : BitVec 32
  align : BitVec 32
  reloff : BitVec 32
  nreloc : BitVec 32
  flags : BitVec 32
  reserved1 : BitVec 32
  reserved2 : BitVec 32
  reserved3 : BitVec (8 * T.only64 4)

namespace Section

variable {T : AddrType}

def ofMemory (T : AddrType) (raw : RawMemory) : Section T :=
  let s := T.size
  ⟨arrayField raw 0 16, arrayField raw 16 16, field raw 32 s, field raw (32 + s) s,
   field raw (32 + 2 * s) 4, field raw (36 + 2 * s) 4, field raw (40 + 2 * s) 4,
   field raw (44 + 2 * s) 4, field raw (48 + 2 * s) 4, field raw (52 + 2 * s) 4,
   field raw (56 + 2 * s) 4, field raw (60 + 2 * s) (T.only64 4)⟩

def members (h : Section T) : List Member :=
  [.array h.sectname, .array h.segname, .scalar T.size h.addr, .scalar T.size h.size,
   .scalar 4 h.offset, .scalar 4 h.align, .scalar 4 h.reloff, .scalar 4 h.nreloc,
   .scalar 4 h.flags, .scalar 4 h.reserved1, .scalar 4 h.reserved2,
   .scalar (T.only64 4) h.reserved3]

/-- `internal::Section<T>()`. -/
def new (T : AddrType) (raw : RawMemory) : Section T :=
  { ofMemory T raw with
    flags := 0
    reserved1 := 0
    reserved2 := 0 }

end Section

/-- `TextSectionHeader<T>()`. -/
def TextSectionHeader.new (T : AddrType) (raw : RawMemory) : Section T :=
  { Section.new T raw with
    sectname := memcpyFront (memset0 16) (ascii "__text")
    segname := memcpyFront (memset0 16) (ascii "__TEXT")
    addr := 0
    size := 0
    offset := 0
    align := 0x3
    reloff := 0
    nreloc := 0 }

/-- `DwarfCommonSectionHeader<T>(section_name, vmbase, file_offset, length)`. -/
def DwarfCommonSectionHeader.new {T : AddrType} (raw : RawMemory) (sectionName : StdString)
    (vmbase : Addr T) (fileOffset : BitVec 32) (length : Addr T) : Section T :=
  { Section.new T raw with
    sectname := memcpyFront (memset0 16) sectionName
    segname := memcpyFront (memset0 16) (ascii "__DWARF")
    addr := vmbase + fileOffset.setWidth _
    size := length
    offset := fileOffset
    align := 0
    reloff := 0
    nreloc := 0 }

/-- `struct DwarfDebugLine`. -/
structure DwarfDebugLine where
  totalLength : BitVec 32
  version : BitVec 16
  prologueLength : BitVec 32
  minInstLength : BitVec 8
  defaultIsStmt : BitVec 8
  lineBase : BitVec 8
  lineRange : BitVec 8
  opcodeBase : BitVec 8

namespace DwarfDebugLine

def ofMemory (raw : RawMemory) : DwarfDebugLine :=
  ⟨field raw 0 4, field raw 4 2, field raw 8 4, field raw 12 1, field raw 13 1, field raw 14 1,
   field raw 15 1, field raw 16 1⟩

def members (l : DwarfDebugLine) : List Member :=
  [.scalar 4 l.totalLength, .scalar 2 l.version, .scalar 4 l.prologueLength,
   .scalar 1 l.minInstLength, .scalar 1 l.defaultIsStmt, .scalar 1 l.lineBase,
   .scalar 1 l.lineRange, .scalar 1 l.opcodeBase]

end DwarfDebugLine

/-- `sizeof` of each struct; an object's size does not depend on its contents. -/
def sizeofUUIDCommand : ℕ := structSize (UUIDCommand.ofMemory fun _ => 0).members
def sizeofSymtabCommand : ℕ := structSize (SymtabCommand.ofMemory fun _ => 0).members
def sizeofSegmentCommand (T : AddrType) : ℕ :=
  structSize (SegmentCommand.ofMemory T fun _ => 0).members
def sizeofSection (T : AddrType) : ℕ := structSize (Section.ofMemory T fun _ => 0).members
def sizeofDwarfDebugLine : ℕ := structSize (DwarfDebugLine.ofMemory fun _ => 0).members

end DSYMCreator
