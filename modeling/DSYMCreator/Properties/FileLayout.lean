import DSYMCreator.Tool.HeaderViews

/-!
# The layout of the file

The command area, the two tables and the four DWARF sections are disjoint pieces
of the file with zeros between them. The sections tile the DWARF segment, which
runs from a page boundary to the end of the file, and one page-aligned base turns
file offsets into addresses.
-/
namespace DSYMCreator.Macho

open Binary StringTable Text

variable {T : AddrType}

/-- The headers that a layout is about. -/
structure Headers where
  symtab : MachO.Symtab
  dwarf : MachO.Segment
  debugLine : MachO.SectionHeader
  debugInfo : MachO.SectionHeader
  debugAbbrev : MachO.SectionHeader
  debugStr : MachO.SectionHeader

namespace Headers

/-- The headers are the ones found in the file under their names. -/
structure FoundIn (hs : Headers) (f : MachO.File) : Prop where
  symtab : f.symtabs = [hs.symtab]
  dwarf : f.findSegment (ascii "__DWARF") = some hs.dwarf
  debugLine : f.findSection (ascii "__debug_line") = some hs.debugLine
  debugInfo : f.findSection (ascii "__debug_info") = some hs.debugInfo
  debugAbbrev : f.findSection (ascii "__debug_abbrev") = some hs.debugAbbrev
  debugStr : f.findSection (ascii "__debug_str") = some hs.debugStr
  sections : hs.dwarf.sections = [hs.debugLine, hs.debugStr, hs.debugAbbrev, hs.debugInfo]

variable (hs : Headers)

/-- The four DWARF sections in the order of their contents. -/
def sections : List MachO.SectionHeader :=
  [hs.debugLine, hs.debugInfo, hs.debugAbbrev, hs.debugStr]

/-- The header and the commands, the tables, and the sections. -/
def areas (f : MachO.File) : List Region :=
  ⟨0, f.header.size + f.commandsSize⟩ ::
    ⟨hs.symtab.symoff, hs.symtab.nsyms * MachO.nlistSize f.header.is64⟩ ::
    ⟨hs.symtab.stroff, hs.symtab.strsize⟩ :: hs.sections.map MachO.SectionHeader.region

end Headers

/-- How the file `file`, read as `f`, is laid out from the buffers `b`. Addresses are
numbers of type `T`, so their difference is taken there. -/
structure FileLayout (file : ByteBuffer) (f : MachO.File) (hs : Headers) (b : Buffers)
    (vmbase : Addr T) : Prop where
  disjoint : (hs.areas f).Pairwise Region.Disjoint
  inBounds : ∀ r ∈ hs.areas f, r.stop ≤ file.length
  padding : ∀ i < file.length, (∀ r ∈ hs.areas f, ¬ r.Contains i) → file[i]? = some 0
  pageAligned : 0x1000 ∣ hs.dwarf.fileoff
  tile : Region.Tile hs.dwarf.fileoff (hs.sections.map MachO.SectionHeader.region)
    (hs.dwarf.fileoff + hs.dwarf.filesize)
  toEnd : hs.dwarf.fileoff + hs.dwarf.filesize = file.length
  symbols : slice file hs.symtab.symoff (hs.symtab.nsyms * MachO.nlistSize f.header.is64) = b.symbols
  strings : slice file hs.symtab.stroff hs.symtab.strsize = b.strings
  debugLine : MachO.sectionData file hs.debugLine = b.debugLine
  debugInfo : MachO.sectionData file hs.debugInfo = b.debugInfo
  debugAbbrev : MachO.sectionData file hs.debugAbbrev = b.debugAbbrev
  debugStr : MachO.sectionData file hs.debugStr = b.strings
  vmbaseAligned : 0x1000 ∣ vmbase.toNat
  sectionAddr : ∀ s ∈ hs.sections, BitVec.ofNat (8 * T.size) s.addr - BitVec.ofNat _ s.offset = vmbase
  segmentAddr : BitVec.ofNat (8 * T.size) hs.dwarf.vmaddr - BitVec.ofNat _ hs.dwarf.fileoff = vmbase

theorem nlistSize_is64 (T : AddrType) : MachO.nlistSize T.is64 = 8 + T.size := by cases T <;> rfl

/-- The address base is the rounded argument, in the arithmetic of `T`. -/
theorem vmbase_toNat (off : Addr T) :
    (alignTo off kAlignBase).toNat = roundUp 0x1000 off.toNat % 2 ^ (8 * T.size) :=
  alignTo_toNat (by have := T.size_ge; omega) off kAlignBase_pow

theorem vmbase_aligned (off : Addr T) : 0x1000 ∣ (alignTo off kAlignBase).toNat := by
  rw [vmbase_toNat, Nat.dvd_mod_iff]
  · exact dvd_roundUp _ _
  · have hsize := T.size_ge
    rw [show (0x1000 : ℕ) = 2 ^ 12 by norm_num]
    exact pow_dvd_pow 2 (by omega)

theorem addr_sub_offset (vmbase : Addr T) (offset : BitVec 32) :
    BitVec.ofNat (8 * T.size) (vmbase + offset.setWidth _).toNat -
      BitVec.ofNat _ offset.toNat = vmbase := by
  rw [BitVec.ofNat_toNat, BitVec.setWidth_eq, BitVec.ofNat_toNat, BitVec.add_sub_cancel]

theorem segment_addr_sub_offset (vmbase : Addr T) (offset : BitVec 32) :
    BitVec.ofNat (8 * T.size) (vmbase + offset.setWidth _).toNat -
      BitVec.ofNat _ (offset.setWidth (8 * T.size)).toNat = vmbase := by
  rw [toNat_setWidth_u32, addr_sub_offset]

section

variable (stack : StackContents) (symbols : List (Symbol T)) (off : Addr T)

def headerViews : Headers where
  symtab := symtabView stack symbols
  dwarf := dwarfView stack symbols off
  debugLine := lineView stack symbols off
  debugInfo := infoView stack symbols off
  debugAbbrev := abbrevView stack symbols off
  debugStr := strView stack symbols off

theorem headerViews_foundIn (uuid : StdString) :
    (headerViews stack symbols off).FoundIn (fileView stack uuid symbols off) where
  symtab := fileView_symtabs
  dwarf := findSegment_dwarf
  debugLine := findSection_line
  debugInfo := findSection_info
  debugAbbrev := findSection_abbrev
  debugStr := findSection_str
  sections := dwarfView_sections

theorem headerViews_areas (uuid : StdString) (h : outputSize symbols < 2 ^ 32) :
    (headerViews stack symbols off).areas (fileView stack uuid symbols off) =
      [⟨0, commandLength T⟩, ⟨0x1000, symbols.length * (8 + T.size)⟩,
        ⟨stringsOff symbols, stringsLength symbols⟩, ⟨lineOff symbols, 20⟩,
        ⟨infoOff symbols, infoLength symbols⟩, ⟨abbrevOff symbols, 18⟩,
        ⟨strOff symbols, stringsLength symbols⟩] := by
  have hcommands : (fileView stack uuid symbols off).header.size +
      (fileView stack uuid symbols off).commandsSize = commandLength T := by
    simp only [fileView, machHeader_size, MachO.File.commandsSize, List.map_cons, List.map_nil,
      List.sum_cons, List.sum_nil, segmentExtent, commandLength]
    omega
  have hwidth : (fileView stack uuid symbols off).header.is64 = T.is64 := machHeader_is64
  simp only [Headers.areas, Headers.sections, headerViews, List.map_cons, List.map_nil,
    MachO.SectionHeader.region, hcommands, hwidth, nlistSize_is64,
    symtabView_eq (tablesEnd_fits h), lineView_offset (tablesEnd_fits h), lineView_size,
    infoView_offset h, infoView_size h, abbrevView_offset h, abbrevView_size, strView_offset h,
    strView_size h]

end

section

variable {stack : StackContents} {uuid : StdString} {symbols : List (Symbol T)} {off : Addr T}

/-- Behind the areas there is nothing but the zeros of the two resizes. -/
theorem image_outside (h : Fits uuid symbols) (hsize : outputSize symbols < 2 ^ 32) {i : ℕ}
    (hi : i < outputSize symbols)
    (hout : ∀ r ∈ (headerViews stack symbols off).areas (fileView stack uuid symbols off),
      ¬ r.Contains i) :
    (image stack uuid symbols off)[i]? = some 0 := by
  rw [headerViews_areas stack symbols off uuid hsize] at hout
  simp only [List.forall_mem_cons, Region.Contains, Region.stop, List.not_mem_nil,
    false_implies, implies_true, and_true] at hout
  obtain ⟨hcommands, hsymbols, hstrings, hline, hinfo, habbrev, hstr⟩ := hout
  have htables := tablesEnd_eq_stringsOff symbols
  have hpage : commandLength T ≤ 0x1000 := commandLength_le T
  have hle := tablesEnd_le_lineOff symbols
  simp only [stringsOff] at *
  by_cases hfirst : i < 0x1000
  · -- behind the commands, in front of the symbol table
    have hpos := image_firstPage stack uuid symbols off
    have hget := hpos.getElem? (i := i - commandLength T) (by rw [length_zeros]; omega)
    rw [Nat.add_sub_cancel' (by omega)] at hget
    rw [hget, zeros, List.getElem?_replicate_of_lt (by omega)]
  · -- behind the string table, in front of the first section
    simp only [outputSize, strOff, abbrevOff, infoOff] at *
    have hpos : OccursAt (image stack uuid symbols off) _ _ := image_padding h
    have hget := hpos.getElem? (i := i - tablesEnd symbols) (by rw [length_zeros]; omega)
    rw [Nat.add_sub_cancel' (by omega)] at hget
    rw [hget, zeros, List.getElem?_replicate_of_lt (by omega)]

/-! A slice at a piece's place and of its length is the piece. -/

theorem slice_symbols (h : Fits uuid symbols) :
    slice (image stack uuid symbols off) 0x1000 (symbols.length * (8 + T.size)) =
      (tables symbols).symbols := by
  rw [← length_tables_symbols]
  exact (image_symbols h).slice_eq

theorem slice_strings (h : Fits uuid symbols) :
    slice (image stack uuid symbols off) (stringsOff symbols) (stringsLength symbols) =
      (tables symbols).strings := (image_strings h).slice_eq

theorem sectionData_line (h : Fits uuid symbols) :
    MachO.sectionData (image stack uuid symbols off) (lineView stack symbols off) =
      (tables symbols).debugLine := by
  rw [MachO.sectionData, lineView_offset h.tables, lineView_size,
    ← length_tables_debugLine symbols]
  exact (image_debugLine h).slice_eq

theorem sectionData_info (h : Fits uuid symbols) (hsize : outputSize symbols < 2 ^ 32) :
    MachO.sectionData (image stack uuid symbols off) (infoView stack symbols off) =
      (tables symbols).debugInfo := by
  rw [MachO.sectionData, infoView_offset hsize, infoView_size hsize, infoLength,
    ← length_tables_debugInfo]
  exact (image_debugInfo h).slice_eq

theorem sectionData_abbrev (h : Fits uuid symbols) (hsize : outputSize symbols < 2 ^ 32) :
    MachO.sectionData (image stack uuid symbols off) (abbrevView stack symbols off) =
      (tables symbols).debugAbbrev := by
  rw [MachO.sectionData, abbrevView_offset hsize, abbrevView_size,
    ← length_tables_debugAbbrev symbols]
  exact (image_debugAbbrev h).slice_eq

theorem sectionData_str (h : Fits uuid symbols) (hsize : outputSize symbols < 2 ^ 32) :
    MachO.sectionData (image stack uuid symbols off) (strView stack symbols off) =
      (tables symbols).strings := by
  unfold MachO.sectionData
  rw [strView_offset hsize, strView_size hsize]
  exact (image_debugStr h).slice_eq

theorem headerViews_ordered (hsize : outputSize symbols < 2 ^ 32) :
    Region.Ordered 0 ((headerViews stack symbols off).areas (fileView stack uuid symbols off)) := by
  rw [headerViews_areas stack symbols off uuid hsize]
  have htables := tablesEnd_eq_stringsOff symbols
  have hpage : commandLength T ≤ 0x1000 := commandLength_le T
  have hle := tablesEnd_le_lineOff symbols
  simp only [Region.Ordered, Region.stop, stringsOff, infoOff, abbrevOff, strOff, and_true] at *
  omega

theorem headerViews_inBounds (hsize : outputSize symbols < 2 ^ 32) :
    ∀ r ∈ (headerViews stack symbols off).areas (fileView stack uuid symbols off),
      r.stop ≤ outputSize symbols := by
  rw [headerViews_areas stack symbols off uuid hsize]
  have htables := tablesEnd_eq_stringsOff symbols
  have hpage : commandLength T ≤ 0x1000 := commandLength_le T
  have hle := tablesEnd_le_lineOff symbols
  simp only [List.forall_mem_cons, Region.stop, List.not_mem_nil, false_implies, implies_true,
    and_true, stringsOff, infoOff, abbrevOff, strOff, outputSize] at *
  omega

theorem headerViews_tile (hsize : outputSize symbols < 2 ^ 32) :
    Region.Tile (lineOff symbols)
      ((headerViews stack symbols off).sections.map MachO.SectionHeader.region)
      (outputSize symbols) := by
  simp only [Headers.sections, headerViews, List.map_cons, List.map_nil,
    MachO.SectionHeader.region, lineView_offset (tablesEnd_fits hsize), lineView_size,
    infoView_offset hsize, infoView_size hsize, abbrevView_offset hsize, abbrevView_size,
    strView_offset hsize, strView_size hsize, Region.Tile, Region.stop]
  exact ⟨trivial, rfl, rfl, rfl, rfl⟩

theorem image_layout (h : Fits uuid symbols) (hsize : outputSize symbols < 2 ^ 32) :
    FileLayout (image stack uuid symbols off) (fileView stack uuid symbols off)
      (headerViews stack symbols off) (tables symbols) (alignTo off kAlignBase) where
  disjoint := (headerViews_ordered hsize).pairwise_disjoint
  inBounds := by
    rw [length_image h]
    exact headerViews_inBounds hsize
  padding := by
    rw [length_image h]
    intro i hi hout
    exact image_outside h hsize hi hout
  pageAligned := by
    change 0x1000 ∣ (dwarfView stack symbols off).fileoff
    rw [dwarfView_fileoff h.tables]
    exact dvd_roundUp _ _
  tile := by
    change Region.Tile (dwarfView stack symbols off).fileoff _
      ((dwarfView stack symbols off).fileoff + (dwarfView stack symbols off).filesize)
    rw [dwarfView_fileoff h.tables, dwarfView_filesize hsize]
    exact headerViews_tile hsize
  toEnd := by
    change (dwarfView stack symbols off).fileoff + (dwarfView stack symbols off).filesize = _
    rw [dwarfView_fileoff h.tables, dwarfView_filesize hsize, length_image h]
  symbols := by
    have hwidth : (fileView stack uuid symbols off).header.is64 = T.is64 := machHeader_is64
    rw [hwidth, nlistSize_is64]
    change slice _ (symtabView stack symbols).symoff
      ((symtabView stack symbols).nsyms * (8 + T.size)) = _
    rw [symtabView_eq h.tables]
    exact slice_symbols h
  strings := by
    change slice _ (symtabView stack symbols).stroff (symtabView stack symbols).strsize = _
    rw [symtabView_eq h.tables]
    exact slice_strings h
  debugLine := sectionData_line h
  debugInfo := sectionData_info h hsize
  debugAbbrev := sectionData_abbrev h hsize
  debugStr := sectionData_str h hsize
  vmbaseAligned := vmbase_aligned off
  sectionAddr := by
    simp only [Headers.sections, headerViews, List.forall_mem_cons]
    exact ⟨addr_sub_offset .., addr_sub_offset .., addr_sub_offset .., addr_sub_offset ..,
      fun _ hs => absurd hs List.not_mem_nil⟩
  segmentAddr := segment_addr_sub_offset ..

/-- Every dump of a file shorter than `2 ^ 32` bytes returns, and returns a file whose
pieces are where its commands say, with one page-aligned base for all addresses. -/
theorem dump_layout (stack : StackContents) (uuid : StdString) (symbols : List (Symbol T))
    (off : Addr T) (huuid : (cleanUuid uuid).length = 32)
    (hsize : outputSize symbols < 2 ^ 32) :
    ∃ buf b f hs, ∃ vmbase : Addr T,
      dump stack uuid symbols off = .ok buf ∧ buf.length = outputSize symbols ∧
      prepareBuffers stack symbols = .ok b ∧ MachO.readFile buf = some f ∧ hs.FoundIn f ∧
      FileLayout buf f hs b vmbase ∧
      vmbase.toNat = roundUp 0x1000 off.toNat % 2 ^ (8 * T.size) := by
  have hfits : Fits uuid symbols := ⟨huuid, tablesEnd_fits hsize⟩
  exact ⟨_, _, _, _, _, hfits.dump_eq stack off, length_image hfits,
    prepareBuffers_ok stack symbols hfits.names_lt, readFile_image,
    headerViews_foundIn stack symbols off uuid, image_layout hfits hsize, vmbase_toNat off⟩

theorem dump_layout_mixed : ∃ buf b f hs, ∃ vmbase : Addr .uint32,
    dump clearStack usageUuid (mixedSymbols .uint32) 0x40123 = .ok buf ∧
      buf.length = outputSize (mixedSymbols .uint32) ∧
      prepareBuffers clearStack (mixedSymbols .uint32) = .ok b ∧
      MachO.readFile buf = some f ∧ hs.FoundIn f ∧ FileLayout buf f hs b vmbase ∧
      vmbase.toNat = roundUp 0x1000 0x40123 % 2 ^ 32 :=
  dump_layout clearStack usageUuid (mixedSymbols .uint32) 0x40123 (by decide)
    (outputSize_mixedSymbols .uint32)

end

end DSYMCreator.Macho
