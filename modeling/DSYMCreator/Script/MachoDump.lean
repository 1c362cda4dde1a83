import DSYMCreator.Script.PythonRepr
import DSYMCreator.Binary.LittleEndian
import DSYMCreator.Binary.Slices

/-!
# `macho-dump.py`

The dump reads a Mach-O file of either byte order and width and prints a line for
every field. A run keeps the lines that it printed when it raises: they are on the
standard output all the same. Warnings go to the standard error and are left out.
-/
namespace MachoDump

open Text Python Binary

/-- The open file, what the magic number said about it, and the lines printed so far. -/
structure Reader where
  file : Bytes
  isLSB : Bool
  is64Bit : Bool
  pos : ℕ
  stringTable : Option Bytes
  printed : List Bytes

/-- `Reader(path)`: the format is unknown until the magic number was read. -/
def Reader.ofFile (file : Bytes) : Reader := ⟨file, false, false, 0, none, []⟩

/-- A run of the script: it changes the reader and returns or raises. -/
abbrev Dump := EStateM Error Reader

def print (line : Bytes) : Dump Unit :=
  modify fun f => { f with printed := f.printed ++ [line] }

/-- `f.is64Bit` -/
def getIs64Bit : Dump Bool := return (← get).is64Bit

def tell : Dump ℕ := return (← get).pos

def seek (pos : ℕ) : Dump Unit := modify fun f => { f with pos := pos }

/-- What `file.read(N)` returns: everything for a negative `N`. -/
def Reader.fileRead (f : Reader) (n : ℤ) : Bytes :=
  if n < 0 then f.file.drop f.pos else slice f.file f.pos n.toNat

def read (n : ℤ) : Dump Bytes := do
  let f ← get
  let data := f.fileRead n
  set { f with pos := f.pos + data.length }
  if (data.length : ℤ) = n then return data else throw .valueError

/-- `struct.unpack` of one unsigned number. -/
def unpack (isLSB : Bool) (data : Bytes) : ℕ := leNat (if isLSB then data else data.reverse)

def readNumber (n : ℕ) : Dump ℕ := do
  let data ← read n
  return unpack (← get).isLSB data

def read8 : Dump ℕ := readNumber 1
def read16 : Dump ℕ := readNumber 2
def read32 : Dump ℕ := readNumber 4
def read64 : Dump ℕ := readNumber 8

def registerStringTable (strings : Bytes) : Dump Unit := do
  let f ← get
  if f.stringTable = none then set { f with stringTable := some strings } else throw .valueError

/-- The string at an index; `index` raises when no NUL follows. -/
def getString (index : ℕ) : Dump Bytes := do
  match (← get).stringTable with
  | none => throw .valueError
  | some table =>
    let rest := table.drop index
    if 0 ∈ rest then return rest.takeWhile (· ≠ 0) else throw .valueError

/-- `for i in range(i, i + n): body(i)`. -/
def forFrom (body : ℕ → Dump Unit) (i : ℕ) : ℕ → Dump Unit
  | 0 => return
  | n + 1 => do
    body i
    forFrom body (i + 1) n

def forRange (n : ℕ) (body : ℕ → Dump Unit) : Dump Unit := forFrom body 0 n

/-- `print template % v`, where `v` is read from the file or was read before. -/
def printNat (template : String) (v : ℕ) : Dump Unit := print (fill template (reprNat v))
def printHex (template : String) (v : ℕ) : Dump Unit := print (fill template (altHex v))
def printStr (template : String) (s : Bytes) : Dump Unit := print (fill template (reprStr s))
def printRead32 (template : String) : Dump Unit := do printNat template (← read32)
def printRead64 (template : String) : Dump Unit := do printNat template (← read64)
def printRead16Bytes (template : String) : Dump Unit := do printStr template (← read 16)

/-- The bodies of the loops over the relocations of a section and over indirect symbols. -/
def dumpRelocation (i : ℕ) : Dump Unit := do
  printNat "    # Relocation %r" i
  printHex "    (('word-0', %#x)," (← read32)
  printHex "     ('word-1', %#x))," (← read32)

def dumpIndirectSymbol (i : ℕ) : Dump Unit := do
  printNat "    # Indirect Symbol %r" i
  printHex "    (('symbol_index', %#x),)," (← read32)

def dumpSection (i : ℕ) (is64Bit : Bool) : Dump Unit := do
  printNat "    # Section %r" i
  printRead16Bytes "   (('section_name', %r)"
  printRead16Bytes "    ('segment_name', %r)"
  (if is64Bit then do
    printRead64 "    ('address', %r)"
    let size ← read64
    printNat "    ('size', %r)" size
  else do
    printRead32 "    ('address', %r)"
    let size ← read32
    printNat "    ('size', %r)" size)
  let offset ← read32
  printNat "    ('offset', %r)" offset
  printRead32 "    ('alignment', %r)"
  let relocOffset ← read32
  printNat "    ('reloc_offset', %r)" relocOffset
  let numReloc ← read32
  printNat "    ('num_reloc', %r)" numReloc
  printHex "    ('flags', %#x)" (← read32)
  printRead32 "    ('reserved1', %r)"
  printRead32 "    ('reserved2', %r)"
  (if is64Bit then printRead32 "    ('reserved3', %r)" else return)
  print (ascii "   ),")
  let prevPos ← tell
  seek relocOffset
  print (ascii "  ('_relocations', [")
  forRange numReloc dumpRelocation
  print (ascii "  ])")
  seek prevPos

def dumpSegmentLoadCommand (is64Bit : Bool) : Dump Unit := do
  printRead16Bytes "  ('segment_name', %r)"
  (if is64Bit then do
    printRead64 "  ('vm_addr', %r)"
    printRead64 "  ('vm_size', %r)"
    printRead64 "  ('file_offset', %r)"
    printRead64 "  ('file_size', %r)"
  else do
    printRead32 "  ('vm_addr', %r)"
    printRead32 "  ('vm_size', %r)"
    printRead32 "  ('file_offset', %r)"
    printRead32 "  ('file_size', %r)")
  printRead32 "  ('maxprot', %r)"
  printRead32 "  ('initprot', %r)"
  let numSections ← read32
  printNat "  ('num_sections', %r)" numSections
  printRead32 "  ('flags', %r)"
  print (ascii "  ('sections', [")
  forRange numSections fun i => dumpSection i is64Bit
  print (ascii "  ])")

def dumpNlist32 (i : ℕ) : Dump Unit := do
  printNat "    # Symbol %r" i
  let nStrx ← read32
  printNat "   (('n_strx', %r)" nStrx
  let nType ← read8
  printHex "    ('n_type', %#x)" nType
  let nSect ← read8
  printNat "    ('n_sect', %r)" nSect
  let nDesc ← read16
  printNat "    ('n_desc', %r)" nDesc
  let is64Bit ← getIs64Bit
  (if is64Bit then do
    let nValue ← read64
    printNat "    ('n_value', %r)" nValue
  else do
    let nValue ← read32
    printNat "    ('n_value', %r)" nValue)
  printStr "    ('_string', %r)" (← getString nStrx)
  print (ascii "   ),")

/-- The part of `dumpSymtabCommand` that leaves the command and comes back to it. -/
def dumpStringsAndSymbols (symoff nsyms stroff strsize : ℕ) : Dump Unit := do
  let prevPos ← tell
  seek stroff
  let stringData ← read strsize
  printStr "  ('_string_data', %r)" stringData
  registerStringTable stringData
  seek symoff
  print (ascii "  ('_symbols', [")
  forRange nsyms dumpNlist32
  print (ascii "  ])")
  seek prevPos

def dumpSymtabCommand : Dump Unit := do
  let symoff ← read32
  printNat "  ('symoff', %r)" symoff
  let nsyms ← read32
  printNat "  ('nsyms', %r)" nsyms
  let stroff ← read32
  printNat "  ('stroff', %r)" stroff
  let strsize ← read32
  printNat "  ('strsize', %r)" strsize
  dumpStringsAndSymbols symoff nsyms stroff strsize

def dumpDysymtabCommand : Dump Unit := do
  printRead32 "  ('ilocalsym', %r)"
  printRead32 "  ('nlocalsym', %r)"
  printRead32 "  ('iextdefsym', %r)"
  printRead32 "  ('nextdefsym', %r)"
  printRead32 "  ('iundefsym', %r)"
  printRead32 "  ('nundefsym', %r)"
  printRead32 "  ('tocoff', %r)"
  printRead32 "  ('ntoc', %r)"
  printRead32 "  ('modtaboff', %r)"
  printRead32 "  ('nmodtab', %r)"
  printRead32 "  ('extrefsymoff', %r)"
  printRead32 "  ('nextrefsyms', %r)"
  let indirectsymoff ← read32
  printNat "  ('indirectsymoff', %r)" indirectsymoff
  let nindirectsyms ← read32
  printNat "  ('nindirectsyms', %r)" nindirectsyms
  printRead32 "  ('extreloff', %r)"
  printRead32 "  ('nextrel', %r)"
  printRead32 "  ('locreloff', %r)"
  printRead32 "  ('nlocrel', %r)"
  let prevPos ← tell
  seek indirectsymoff
  print (ascii "  ('_indirect_symbols', [")
  forRange nindirectsyms dumpIndirectSymbol
  print (ascii "  ])")
  seek prevPos

/-- The branches of `dumpLoadCommand` behind the two fields that every command has. -/
def dumpCommandBody (cmd cmdSize : ℕ) : Dump Unit := do
  if cmd = 1 then
    dumpSegmentLoadCommand false
  else if cmd = 2 then
    dumpSymtabCommand
  else if cmd = 11 then
    dumpDysymtabCommand
  else if cmd = 25 then
    dumpSegmentLoadCommand true
  else if cmd = 27 then
    print (fill "  ('uuid', %s)" (uuidText (← read 16)))
  else
    let _ ← read ((cmdSize : ℤ) - 8)

def dumpLoadCommand (i : ℕ) : Dump Unit := do
  let start ← tell
  printNat "  # Load Command %r" i
  let cmd ← read32
  printNat " (('command', %r)" cmd
  let cmdSize ← read32
  printNat "  ('size', %r)" cmdSize
  dumpCommandBody cmd cmdSize
  print (ascii " ),")
  if ((← tell : ℕ) : ℤ) - start ≠ cmdSize then throw .valueError

/-- `f.isLSB, f.is64Bit = ..` for a magic number. -/
def setFormat (magic : Bytes) : Dump Unit := do
  let f ← get
  if magic = [0xfe, 0xed, 0xfa, 0xce] then
    set { f with isLSB := false, is64Bit := false }
  else if magic = [0xce, 0xfa, 0xed, 0xfe] then
    set { f with isLSB := true, is64Bit := false }
  else if magic = [0xfe, 0xed, 0xfa, 0xcf] then
    set { f with isLSB := false, is64Bit := true }
  else if magic = [0xcf, 0xfa, 0xed, 0xfe] then
    set { f with isLSB := true, is64Bit := true }
  else
    throw .valueError

/-- The part of `dumpmacho` behind the magic number. -/
def dumpHeaderAndCommands : Dump Unit := do
  printRead32 "('cputype', %r)"
  printRead32 "('cpusubtype', %r)"
  let filetype ← read32
  printNat "('filetype', %r)" filetype
  let numLoadCommands ← read32
  -- the script prints the file type a second time here
  printNat "('num_load_commands', %r)" filetype
  let loadCommandsSize ← read32
  printNat "('load_commands_size', %r)" loadCommandsSize
  printRead32 "('flag', %r)"
  let is64Bit ← getIs64Bit
  (if is64Bit then printRead32 "('reserved', %r)" else return)
  let start ← tell
  print (ascii "('load_commands', [")
  forRange numLoadCommands dumpLoadCommand
  print (ascii "])")
  if ((← tell : ℕ) : ℤ) - start ≠ loadCommandsSize then throw .valueError

def dumpmacho : Dump Unit := do
  let magic ← read 4
  setFormat magic
  dumpHeaderAndCommands

/-- The script returns without an exception, having printed these lines. -/
def Prints (file : Bytes) (lines : List Bytes) : Prop :=
  ∃ f, dumpmacho (.ofFile file) = .ok () f ∧ f.printed = lines

/-- The script dumps the file without an exception. -/
def Dumps (file : Bytes) : Prop := ∃ lines, Prints file lines

instance (file : Bytes) : Decidable (Dumps file) :=
  match hrun : dumpmacho (.ofFile file) with
  | .ok _ f => .isTrue ⟨f.printed, f, hrun, rfl⟩
  | .error _ _ => .isFalse fun ⟨_, _, hok, _⟩ => by
    rw [hrun] at hok
    cases hok

/-- What the script writes to its standard output, whether it raises or not. -/
def machoDump (file : Bytes) : Bytes :=
  match dumpmacho (.ofFile file) with
  | .ok _ f => unlines f.printed
  | .error _ f => unlines f.printed

end MachoDump
