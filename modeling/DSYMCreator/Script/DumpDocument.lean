import DSYMCreator.Script.MachoDump
import DSYMCreator.Formats.MachOImageBounds

/-!
# The text of a dump

The lines that a dump of an image has, as a function of the image alone: every
field is taken at its offset, and nothing is read twice or out of order.
-/
namespace MachoDump

open Text Python MachO

/-- A line with a number in decimal or in hexadecimal, or with a string. -/
def natLine (template : String) (v : ℕ) : Bytes := fill template (reprNat v)
def hexLine (template : String) (v : ℕ) : Bytes := fill template (altHex v)
def strLine (template : String) (s : Bytes) : Bytes := fill template (reprStr s)

variable (m : Image)

/-- One line for each of these templates, with successive 32-bit fields from an offset on. -/
def fieldLines (off : ℕ) : List String → List Bytes
  | [] => []
  | template :: templates => natLine template (m.u32 off) :: fieldLines (off + 4) templates

def relocationLines (off i : ℕ) : List Bytes :=
  [natLine "    # Relocation %r" i, hexLine "    (('word-0', %#x)," (m.u32 off),
    hexLine "     ('word-1', %#x))," (m.u32 (off + 4))]

/-- The address and the size of a section. -/
def sectionRangeLines (wide : Bool) (off : ℕ) : List Bytes :=
  if wide then
    [natLine "    ('address', %r)" (m.u64 (off + 32)), natLine "    ('size', %r)" (m.u64 (off + 40))]
  else
    [natLine "    ('address', %r)" (m.u32 (off + 32)), natLine "    ('size', %r)" (m.u32 (off + 36))]

def sectionLines (wide : Bool) (off i : ℕ) : List Bytes :=
  let tail := Image.sectionTail wide off
  [natLine "    # Section %r" i, strLine "   (('section_name', %r)" (m.bytes off 16),
      strLine "    ('segment_name', %r)" (m.bytes (off + 16) 16)] ++
    sectionRangeLines m wide off ++
    fieldLines m tail ["    ('offset', %r)", "    ('alignment', %r)", "    ('reloc_offset', %r)",
      "    ('num_reloc', %r)"] ++
    [hexLine "    ('flags', %#x)" (m.u32 (tail + 16))] ++
    fieldLines m (tail + 20) ["    ('reserved1', %r)", "    ('reserved2', %r)"] ++
    (if wide then fieldLines m (tail + 28) ["    ('reserved3', %r)"] else []) ++
    [ascii "   ),", ascii "  ('_relocations', ["] ++
    (List.range (m.relocCount wide off)).flatMap
      (fun j => relocationLines m (m.relocOffset wide off + j * 8) j) ++
    [ascii "  ])"]

/-- The addresses and the offsets of a segment. -/
def segmentRangeLines (wide : Bool) (off : ℕ) : List Bytes :=
  if wide then
    [natLine "  ('vm_addr', %r)" (m.u64 (off + 24)), natLine "  ('vm_size', %r)" (m.u64 (off + 32)),
      natLine "  ('file_offset', %r)" (m.u64 (off + 40)),
      natLine "  ('file_size', %r)" (m.u64 (off + 48))]
  else
    fieldLines m (off + 24) ["  ('vm_addr', %r)", "  ('vm_size', %r)", "  ('file_offset', %r)",
      "  ('file_size', %r)"]

def segmentLines (wide : Bool) (off : ℕ) : List Bytes :=
  [strLine "  ('segment_name', %r)" (m.bytes (off + 8) 16)] ++ segmentRangeLines m wide off ++
    fieldLines m (off + (Image.segmentSize wide - 16)) ["  ('maxprot', %r)", "  ('initprot', %r)",
      "  ('num_sections', %r)", "  ('flags', %r)"] ++
    [ascii "  ('sections', ["] ++
    (List.range (m.sectionCount wide off)).flatMap
      (fun i => sectionLines m wide (Image.sectionOffset wide off i) i) ++
    [ascii "  ])"]

/-- One symbol, whose name is taken from a string table. -/
def symbolLines (table : Bytes) (off i : ℕ) : List Bytes :=
  [natLine "    # Symbol %r" i, natLine "   (('n_strx', %r)" (m.u32 off),
    hexLine "    ('n_type', %#x)" (m.number (off + 4) 1),
    natLine "    ('n_sect', %r)" (m.number (off + 5) 1),
    natLine "    ('n_desc', %r)" (m.number (off + 6) 2),
    natLine "    ('n_value', %r)" (m.number (off + 8) (m.nlistSize - 8)),
    strLine "    ('_string', %r)" (Image.nameAt table (m.u32 off)), ascii "   ),"]

def symtabLines (off : ℕ) : List Bytes :=
  fieldLines m (off + 8) ["  ('symoff', %r)", "  ('nsyms', %r)", "  ('stroff', %r)",
      "  ('strsize', %r)"] ++
    [strLine "  ('_string_data', %r)" (m.stringTable off), ascii "  ('_symbols', ["] ++
    (List.range (m.symbolCount off)).flatMap
      (fun i => symbolLines m (m.stringTable off) (m.symbolOffset off i) i) ++
    [ascii "  ])"]

def indirectSymbolLines (off i : ℕ) : List Bytes :=
  [natLine "    # Indirect Symbol %r" i, hexLine "    (('symbol_index', %#x),)," (m.u32 off)]

def dysymtabLines (off : ℕ) : List Bytes :=
  fieldLines m (off + 8) ["  ('ilocalsym', %r)", "  ('nlocalsym', %r)", "  ('iextdefsym', %r)",
      "  ('nextdefsym', %r)", "  ('iundefsym', %r)", "  ('nundefsym', %r)", "  ('tocoff', %r)",
      "  ('ntoc', %r)", "  ('modtaboff', %r)", "  ('nmodtab', %r)", "  ('extrefsymoff', %r)",
      "  ('nextrefsyms', %r)", "  ('indirectsymoff', %r)", "  ('nindirectsyms', %r)",
      "  ('extreloff', %r)", "  ('nextrel', %r)", "  ('locreloff', %r)", "  ('nlocrel', %r)"] ++
    [ascii "  ('_indirect_symbols', ["] ++
    (List.range (m.u32 (off + 60))).flatMap
      (fun i => indirectSymbolLines m (m.u32 (off + 56) + i * 4) i) ++
    [ascii "  ])"]

/-- What is shown of a command between its size and its end. -/
def bodyLines (off : ℕ) : List Bytes :=
  match m.kindAt off with
  | .segment wide => segmentLines m wide off
  | .symtab => symtabLines m off
  | .dysymtab => dysymtabLines m off
  | .uuid => [fill "  ('uuid', %s)" (uuidText (m.bytes (off + 8) 16))]
  | .other => []

def commandLines (off i : ℕ) : List Bytes :=
  natLine "  # Load Command %r" i ::
    fieldLines m off [" (('command', %r)", "  ('size', %r)"] ++ bodyLines m off ++ [ascii " ),"]

/-- The fields of the header; the file type stands where the number of commands should. -/
def headerLines : List Bytes :=
  fieldLines m 4 ["('cputype', %r)", "('cpusubtype', %r)", "('filetype', %r)"] ++
    [natLine "('num_load_commands', %r)" (m.u32 12)] ++
    fieldLines m 20 ["('load_commands_size', %r)", "('flag', %r)"] ++
    (if m.is64Bit then fieldLines m 28 ["('reserved', %r)"] else [])

/-- The lines of the whole dump. -/
def document : List Bytes :=
  headerLines m ++ [ascii "('load_commands', ["] ++
    m.commands.zipIdx.flatMap (fun c => commandLines m c.1 c.2) ++ [ascii "])"]

end MachoDump
