import DSYMCreator.Binary.Parser
import DSYMCreator.Binary.Slices

/-!
# A reader of little-endian Mach-O files

The reader knows the format and no writer of it: the `mach_header`, then
`ncmds` load commands reached by adding each `cmdsize` to the offset of its
command, then the symbol table and the strings that a `LC_SYMTAB` points to.
Section headers are numbered from 1 in the order the load commands list them.
-/
namespace MachO

open Binary Binary.Parser

structure Header where
  magic : ℕ
  cputype : ℕ
  cpusubtype : ℕ
  filetype : ℕ
  ncmds : ℕ
  sizeofcmds : ℕ
  flags : ℕ
  deriving DecidableEq, Repr

structure SectionHeader where
  sectname : List UInt8
  segname : List UInt8
  addr : ℕ
  size : ℕ
  offset : ℕ
  align : ℕ
  reloff : ℕ
  nreloc : ℕ
  flags : ℕ
  deriving DecidableEq, Repr

structure Segment where
  segname : List UInt8
  vmaddr : ℕ
  vmsize : ℕ
  fileoff : ℕ
  filesize : ℕ
  maxprot : ℕ
  initprot : ℕ
  flags : ℕ
  sections : List SectionHeader
  deriving DecidableEq, Repr

structure Symtab where
  symoff : ℕ
  nsyms : ℕ
  stroff : ℕ
  strsize : ℕ
  deriving DecidableEq, Repr

structure Nlist where
  nStrx : ℕ
  nType : ℕ
  nSect : ℕ
  nDesc : ℕ
  nValue : ℕ
  deriving DecidableEq, Repr

inductive Body
  | segment (seg : Segment)
  | symtab (table : Symtab)
  | uuid (payload : List UInt8)
  | unknown
  deriving DecidableEq, Repr

/-- A load command, with the number of bytes its own fields and headers take up. -/
structure LoadCommand where
  cmd : ℕ
  cmdsize : ℕ
  body : Body
  extent : ℕ
  deriving DecidableEq, Repr

structure File where
  header : Header
  commands : List LoadCommand
  deriving DecidableEq, Repr

def magic32 : ℕ := 0xfeedface
def magic64 : ℕ := 0xfeedfacf

namespace Header

def is64 (h : Header) : Bool := h.magic == magic64

/-- `sizeof` of the header variant that the magic number announces. -/
def size (h : Header) : ℕ := if h.is64 then 32 else 28

end Header

/-- Bytes of an address-sized field. -/
def wordSize (is64 : Bool) : ℕ := if is64 then 8 else 4

/-- A 16-byte name field: the name ends at the first NUL, or fills the field. -/
def trimName (field : List UInt8) : List UInt8 := field.takeWhile (· ≠ 0)

def name16 : Parser (List UInt8) := do
  let field ← bytes 16
  return trimName field

def header : Parser Header := do
  let magic ← uint 4
  guard (magic = magic32 ∨ magic = magic64)
  let cputype ← uint 4
  let cpusubtype ← uint 4
  let filetype ← uint 4
  let ncmds ← uint 4
  let sizeofcmds ← uint 4
  let flags ← uint 4
  return ⟨magic, cputype, cpusubtype, filetype, ncmds, sizeofcmds, flags⟩

/-- A section header; the 64-bit variant has wide addresses and a third reserved field. -/
def sectionHeader (is64 : Bool) : Parser SectionHeader := do
  let sectname ← name16
  let segname ← name16
  let addr ← uint (wordSize is64)
  let size ← uint (wordSize is64)
  let offset ← uint 4
  let align ← uint 4
  let reloff ← uint 4
  let nreloc ← uint 4
  let flags ← uint 4
  let _reserved1 ← uint 4
  let _reserved2 ← uint 4
  let _reserved3 ← uint (if is64 then 4 else 0)
  return ⟨sectname, segname, addr, size, offset, align, reloff, nreloc, flags⟩

/-- The fields of a segment command behind `cmd` and `cmdsize`, then its section headers. -/
def segment (is64 : Bool) : Parser Segment := do
  let segname ← name16
  let vmaddr ← uint (wordSize is64)
  let vmsize ← uint (wordSize is64)
  let fileoff ← uint (wordSize is64)
  let filesize ← uint (wordSize is64)
  let maxprot ← uint 4
  let initprot ← uint 4
  let nsects ← uint 4
  let flags ← uint 4
  let sections ← times (sectionHeader is64) nsects
  return ⟨segname, vmaddr, vmsize, fileoff, filesize, maxprot, initprot, flags, sections⟩

def symtab : Parser Symtab := do
  let symoff ← uint 4
  let nsyms ← uint 4
  let stroff ← uint 4
  let strsize ← uint 4
  return ⟨symoff, nsyms, stroff, strsize⟩

def lcSegment : ℕ := 0x1
def lcSymtab : ℕ := 0x2
def lcSegment64 : ℕ := 0x19
def lcUuid : ℕ := 0x1b

/-- What follows the first two fields of a command depends on its type. -/
def body (cmd cmdsize : ℕ) : Parser Body :=
  if cmd = lcSegment then do return .segment (← segment false)
  else if cmd = lcSegment64 then do return .segment (← segment true)
  else if cmd = lcSymtab then do return .symtab (← symtab)
  else if cmd = lcUuid then do return .uuid (← bytes 16)
  else do
    let _ ← bytes (cmdsize - 8)
    return .unknown

def loadCommand : Parser (ℕ × ℕ × Body) := do
  let cmd ← uint 4
  let cmdsize ← uint 4
  let b ← body cmd cmdsize
  return (cmd, cmdsize, b)

/-- Read `n` commands, the first at `off` and each next one `cmdsize` bytes further. -/
def readCommands (file : List UInt8) : ℕ → ℕ → Option (List LoadCommand)
  | 0, _ => some []
  | n + 1, off =>
    match loadCommand (file.drop off) with
    | none => none
    | some ((cmd, cmdsize, b), rest) =>
      match readCommands file n (off + cmdsize) with
      | none => none
      | some cs => some (⟨cmd, cmdsize, b, (file.drop off).length - rest.length⟩ :: cs)

theorem readCommands_zero (file : List UInt8) (off : ℕ) : readCommands file 0 off = some [] := rfl

theorem readCommands_cons {file bs : List UInt8} {off cmd cmdsize n : ℕ} {b : Body}
    {cs : List LoadCommand} (hat : OccursAt file off bs)
    (hreads : Reads loadCommand bs (cmd, cmdsize, b))
    (hrest : readCommands file n (off + cmdsize) = some cs) :
    readCommands file (n + 1) off = some (⟨cmd, cmdsize, b, bs.length⟩ :: cs) := by
  obtain ⟨after, hdrop⟩ := hat.drop_eq
  have hcommand := hreads after
  simp only [readCommands, hdrop, hcommand, hrest]
  simp

def readFile (file : List UInt8) : Option File :=
  match header file with
  | none => none
  | some (h, _) => (readCommands file h.ncmds h.size).map fun cs => ⟨h, cs⟩

theorem find?_key_of_mem {α β : Type} [BEq β] [LawfulBEq β] {key : α → β} {xs : List α}
    (hnodup : (xs.map key).Nodup) {x : α} (hx : x ∈ xs) :
    (xs.find? fun y => key y == key x) = some x := by
  induction xs with
  | nil => cases hx
  | cons y ys ih =>
    rw [List.map_cons, List.nodup_cons] at hnodup
    rcases List.mem_cons.mp hx with rfl | hx
    · simp
    · have hne : key y ≠ key x := fun he => hnodup.1 (he ▸ List.mem_map_of_mem hx)
      rw [List.find?_cons_of_neg (by simpa using hne)]
      exact ih hnodup.2 hx

namespace File

variable (f : File)

def segments : List Segment := f.commands.filterMap fun c =>
  match c.body with
  | .segment seg => some seg
  | _ => none

def symtabs : List Symtab := f.commands.filterMap fun c =>
  match c.body with
  | .symtab t => some t
  | _ => none

def uuids : List (List UInt8) := f.commands.filterMap fun c =>
  match c.body with
  | .uuid p => some p
  | _ => none

/-- What the load commands take up by their own account: the walk ends this far
behind the header. -/
def commandsSize : ℕ := (f.commands.map LoadCommand.cmdsize).sum

/-- The rule of `mach-o/loader.h` for the command area: every `cmdsize` is the size of its
command, and `sizeofcmds` is the size of all of them. -/
def CommandsConsistent : Prop :=
  (∀ c ∈ f.commands, c.cmdsize = c.extent) ∧ f.header.sizeofcmds = f.commandsSize

/-- All section headers in load-command order: ordinal `k` is element `k - 1`. -/
def sections : List SectionHeader := f.segments.flatMap Segment.sections

/-- The section header that an `n_sect` ordinal denotes; ordinals count from 1. -/
def sectionOrdinal (k : ℕ) : Option SectionHeader :=
  if k = 0 then none else f.sections[k - 1]?

def findSection (name : List UInt8) : Option SectionHeader :=
  f.sections.find? fun s => s.sectname == name

def findSegment (name : List UInt8) : Option Segment :=
  f.segments.find? fun s => s.segname == name

variable {f}

theorem findSection_of_mem (hnodup : (f.sections.map SectionHeader.sectname).Nodup)
    {s : SectionHeader} (hs : s ∈ f.sections) : f.findSection s.sectname = some s :=
  find?_key_of_mem hnodup hs

theorem findSegment_of_mem (hnodup : (f.segments.map Segment.segname).Nodup)
    {s : Segment} (hs : s ∈ f.segments) : f.findSegment s.segname = some s :=
  find?_key_of_mem hnodup hs

end File

/-- The byte range that a section header denotes, and the bytes of the file there. -/
def SectionHeader.region (s : SectionHeader) : Region := ⟨s.offset, s.size⟩

def sectionData (file : List UInt8) (s : SectionHeader) : List UInt8 :=
  slice file s.offset s.size

/-- One symbol table entry; `n_value` has the width of an address. -/
def nlist (is64 : Bool) : Parser Nlist := do
  let nStrx ← uint 4
  let nType ← uint 1
  let nSect ← uint 1
  let nDesc ← uint 2
  let nValue ← uint (wordSize is64)
  return ⟨nStrx, nType, nSect, nDesc, nValue⟩

/-- `sizeof (struct nlist)` or `sizeof (struct nlist_64)`. -/
def nlistSize (is64 : Bool) : ℕ := if is64 then 16 else 12

def readSymbols (is64 : Bool) (file : List UInt8) (t : Symtab) : Option (List Nlist) :=
  (times (nlist is64) t.nsyms).value? (file.drop t.symoff)

/-- The bytes from `stroff + n_strx` up to the next NUL. -/
def symbolName (file : List UInt8) (t : Symtab) (s : Nlist) : Option (List UInt8) :=
  cString.value? (file.drop (t.stroff + s.nStrx))

end MachO
