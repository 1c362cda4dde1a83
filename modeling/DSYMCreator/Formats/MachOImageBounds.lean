import DSYMCreator.Formats.MachOImage

/-!
# Images whose load commands stay inside the file

A load command announces its size and may point to other places of the file: to
relocations, to a symbol table with its strings, to indirect symbols. An image is
walkable when every command is as long as its contents and every pointer stays
inside the file, and well formed when its header also has the right size of them.
-/
namespace MachO

/-- The load commands that an image is walked by. -/
inductive CommandKind
  | segment (wide : Bool)
  | symtab
  | dysymtab
  | uuid
  | other
  deriving DecidableEq, Repr

/-- The kind of a command with this type. -/
def commandKind (cmd : ℕ) : CommandKind :=
  if cmd = 1 then .segment false
  else if cmd = 2 then .symtab
  else if cmd = 11 then .dysymtab
  else if cmd = 25 then .segment true
  else if cmd = 27 then .uuid
  else .other

namespace Image

variable (m : Image)

def kindAt (off : ℕ) : CommandKind := commandKind (m.u32 off)

/-- The file has these bytes. -/
def Spans (off len : ℕ) : Prop := len = 0 ∨ off + len ≤ m.file.length

/-- `nsects` of a segment command and the offset of a section header behind it. -/
def sectionCount (wide : Bool) (off : ℕ) : ℕ := m.u32 (off + (segmentSize wide - 8))
def sectionOffset (wide : Bool) (off i : ℕ) : ℕ := off + segmentSize wide + i * sectionSize wide

/-- The fields of a section header behind its address and size. -/
def sectionTail (wide : Bool) (off : ℕ) : ℕ := off + if wide then 48 else 40

/-- `reloff` and `nreloc` of a section header. -/
def relocOffset (wide : Bool) (off : ℕ) : ℕ := m.u32 (sectionTail wide off + 8)
def relocCount (wide : Bool) (off : ℕ) : ℕ := m.u32 (sectionTail wide off + 12)

/-- The relocations of a section are in the file. -/
def SectionInside (wide : Bool) (off : ℕ) : Prop :=
  m.Spans (m.relocOffset wide off) (8 * m.relocCount wide off)

/-- The offset of an entry of the symbol table that a `LC_SYMTAB` points to. -/
def symbolOffset (off i : ℕ) : ℕ := m.u32 (off + 8) + i * m.nlistSize
def symbolCount (off : ℕ) : ℕ := m.u32 (off + 12)

/-- The string table and the symbol table are in the file, and every name ends. -/
structure SymbolsInside (off : ℕ) : Prop where
  strings : m.Spans (m.u32 (off + 16)) (m.u32 (off + 20))
  entries : ∀ i < m.symbolCount off, m.symbolOffset off i + m.nlistSize ≤ m.file.length
  names : ∀ i < m.symbolCount off, 0 ∈ (m.stringTable off).drop (m.u32 (m.symbolOffset off i))

/-- What a command points to is in the file. -/
def PointersInside (off : ℕ) : Prop :=
  match m.kindAt off with
  | .segment wide =>
    ∀ i < m.sectionCount wide off, m.SectionInside wide (sectionOffset wide off i)
  | .symtab => m.SymbolsInside off
  | .dysymtab => m.Spans (m.u32 (off + 56)) (4 * m.u32 (off + 60))
  | .uuid => True
  | .other => True

/-- The bytes that a command takes up by its contents. -/
def extent (off : ℕ) : ℕ :=
  match m.kindAt off with
  | .segment wide => segmentSize wide + m.sectionCount wide off * sectionSize wide
  | .symtab => 24
  | .dysymtab => 80
  | .uuid => 24
  | .other => max 8 (m.u32 (off + 4))

structure CommandFits (off : ℕ) : Prop where
  inside : off + m.extent off ≤ m.file.length
  pointers : m.PointersInside off
  size : m.u32 (off + 4) = m.extent off

/-- The `cmdsize` fields of all commands. -/
def commandsSize : ℕ := (m.commands.map fun off => m.u32 (off + 4)).sum

def symtabs : List ℕ := m.commands.filter fun off => m.kindAt off = .symtab

/-- The payloads of the `LC_UUID` commands. -/
def uuids : List (List UInt8) :=
  (m.commands.filter fun off => m.kindAt off = .uuid).map fun off => m.bytes (off + 8) 16

/-- The commands can be walked one after the other, with one symbol table at most. -/
structure Walkable : Prop where
  header : m.headerSize ≤ m.file.length
  command : ∀ off ∈ m.commands, m.CommandFits off
  oneTable : m.symtabs.length ≤ 1

structure WellFormed : Prop extends Walkable m where
  size : m.commandsSize = m.u32 20

variable {m}

theorem length_bytes {off len : ℕ} : (m.bytes off len).length = len ↔ m.Spans off len := by
  unfold bytes Binary.slice Spans
  rw [List.length_take, List.length_drop]
  omega

theorem spans_of_pos {off len : ℕ} (h : 0 < len) : m.Spans off len ↔ off + len ≤ m.file.length := by
  unfold Spans
  omega

end Image
end MachO
