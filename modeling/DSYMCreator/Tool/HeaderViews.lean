import DSYMCreator.Tool.FileView

/-!
# The headers that a reader finds by name

The walk yields one symbol table command, the segments `__TEXT` and `__DWARF`,
and the section headers of both. In a file shorter than `2 ^ 32` bytes each
header's offset and size are those of the piece it is named after.
-/
namespace DSYMCreator.Macho

open Binary Binary.Parser StringTable Text

variable {T : AddrType}

section Views

variable (stack : StackContents) (symbols : List (Symbol T)) (off : Addr T)

def symtabView : MachO.Symtab := ((tables symbols).symtabCommand stack symbols.length).view

def textSectionView (T : AddrType) : MachO.SectionHeader := (textSectionHeader T stack).view

def lineView : MachO.SectionHeader :=
  ((tables symbols).debugLineHeader stack (alignTo off kAlignBase)).view

def infoView : MachO.SectionHeader :=
  ((tables symbols).debugInfoHeader stack (alignTo off kAlignBase)).view

def abbrevView : MachO.SectionHeader :=
  ((tables symbols).debugAbbrevHeader stack (alignTo off kAlignBase)).view

def strView : MachO.SectionHeader :=
  ((tables symbols).debugStrHeader stack (alignTo off kAlignBase)).view

variable {stack symbols off} {uuid : StdString}

theorem fileView_symtabs : (fileView stack uuid symbols off).symtabs = [symtabView stack symbols] :=
  rfl

theorem fileView_segments :
    (fileView stack uuid symbols off).segments = [textView (T := T) stack, dwarfView stack symbols off] :=
  rfl

theorem textView_sections : (textView (T := T) stack).sections = [textSectionView stack T] := rfl

theorem dwarfView_sections : (dwarfView stack symbols off).sections =
    [lineView stack symbols off, strView stack symbols off, abbrevView stack symbols off,
      infoView stack symbols off] := rfl

theorem fileView_sections : (fileView stack uuid symbols off).sections =
    [textSectionView stack T, lineView stack symbols off, strView stack symbols off,
      abbrevView stack symbols off, infoView stack symbols off] := rfl

theorem textView_segname : (textView (T := T) stack).segname = ascii "__TEXT" := by
  change MachO.trimName (memcpyFront (memset0 16) (ascii "__TEXT")).toList = _
  decide

variable (stack symbols off) in
theorem dwarfView_segname : (dwarfView stack symbols off).segname = ascii "__DWARF" := by
  change MachO.trimName (memcpyFront (memset0 16) (ascii "__DWARF")).toList = _
  decide

theorem textSectionView_sectname : (textSectionView stack T).sectname = ascii "__text" := by
  change MachO.trimName (memcpyFront (memset0 16) (ascii "__text")).toList = _
  decide

theorem textSectionView_segname : (textSectionView stack T).segname = ascii "__TEXT" := by
  change MachO.trimName (memcpyFront (memset0 16) (ascii "__TEXT")).toList = _
  decide

variable (stack symbols off) in
theorem lineView_sectname : (lineView stack symbols off).sectname = ascii "__debug_line" := by
  change MachO.trimName (memcpyFront (memset0 16) (ascii "__debug_line")).toList = _
  decide

variable (stack symbols off) in
theorem infoView_sectname : (infoView stack symbols off).sectname = ascii "__debug_info" := by
  change MachO.trimName (memcpyFront (memset0 16) (ascii "__debug_info")).toList = _
  decide

variable (stack symbols off) in
theorem abbrevView_sectname : (abbrevView stack symbols off).sectname = ascii "__debug_abbrev" := by
  change MachO.trimName (memcpyFront (memset0 16) (ascii "__debug_abbrev")).toList = _
  decide

variable (stack symbols off) in
theorem strView_sectname : (strView stack symbols off).sectname = ascii "__debug_str" := by
  change MachO.trimName (memcpyFront (memset0 16) (ascii "__debug_str")).toList = _
  decide

theorem findSegment_dwarf : (fileView stack uuid symbols off).findSegment (ascii "__DWARF") =
    some (dwarfView stack symbols off) := by
  rw [← dwarfView_segname stack symbols off]
  refine MachO.File.findSegment_of_mem ?_ (by simp [fileView_segments])
  rw [fileView_segments, List.map_cons, List.map_cons, textView_segname, dwarfView_segname]
  decide

/-- No two of the five section headers share a name. -/
theorem fileView_sectnames :
    ((fileView stack uuid symbols off).sections.map MachO.SectionHeader.sectname).Nodup := by
  rw [fileView_sections]
  simp only [List.map_cons, List.map_nil, textSectionView_sectname, lineView_sectname,
    strView_sectname, abbrevView_sectname, infoView_sectname]
  decide

theorem findSection_line : (fileView stack uuid symbols off).findSection (ascii "__debug_line") =
    some (lineView stack symbols off) := by
  rw [← lineView_sectname stack symbols off]
  exact MachO.File.findSection_of_mem fileView_sectnames (by simp [fileView_sections])

theorem findSection_str : (fileView stack uuid symbols off).findSection (ascii "__debug_str") =
    some (strView stack symbols off) := by
  rw [← strView_sectname stack symbols off]
  exact MachO.File.findSection_of_mem fileView_sectnames (by simp [fileView_sections])

theorem findSection_abbrev :
    (fileView stack uuid symbols off).findSection (ascii "__debug_abbrev") =
      some (abbrevView stack symbols off) := by
  rw [← abbrevView_sectname stack symbols off]
  exact MachO.File.findSection_of_mem fileView_sectnames (by simp [fileView_sections])

theorem findSection_info : (fileView stack uuid symbols off).findSection (ascii "__debug_info") =
    some (infoView stack symbols off) := by
  rw [← infoView_sectname stack symbols off]
  exact MachO.File.findSection_of_mem fileView_sectnames (by simp [fileView_sections])

end Views

/-! ## Offsets and sizes -/

theorem sectionLength_toNat {buffer : ByteBuffer} (h : buffer.length < 2 ^ 32) :
    (Buffers.sectionLength T buffer).toNat = buffer.length := by
  unfold Buffers.sectionLength
  rw [toNat_setWidth_u32, toNat_toU32_of_lt h]

section Sizes

variable {stack : StackContents} {symbols : List (Symbol T)} {off : Addr T}

theorem lineView_offset (h : tablesEnd symbols + 0x1000 ≤ 2 ^ 32) :
    (lineView stack symbols off).offset = lineOff symbols := tables_dwarfStart h

theorem lineView_size : (lineView stack symbols off).size = 20 :=
  sectionLength_toNat (by rw [length_tables_debugLine]; norm_num)

theorem infoView_offset (h : outputSize symbols < 2 ^ 32) :
    (infoView stack symbols off).offset = infoOff symbols := infoOffset_toNat h

theorem infoView_size (h : outputSize symbols < 2 ^ 32) :
    (infoView stack symbols off).size = infoLength symbols := by
  have hlen : (tables symbols).debugInfo.length = infoLength symbols := length_tables_debugInfo ..
  rw [← hlen]
  apply sectionLength_toNat
  simp only [outputSize, strOff, abbrevOff] at h
  omega

theorem abbrevView_offset (h : outputSize symbols < 2 ^ 32) :
    (abbrevView stack symbols off).offset = abbrevOff symbols := abbrevOffset_toNat h

theorem abbrevView_size : (abbrevView stack symbols off).size = 18 :=
  sectionLength_toNat (by rw [length_tables_debugAbbrev]; norm_num)

theorem strView_offset (h : outputSize symbols < 2 ^ 32) :
    (strView stack symbols off).offset = strOff symbols := strOffset_toNat h

theorem strView_size (h : outputSize symbols < 2 ^ 32) :
    (strView stack symbols off).size = stringsLength symbols := by
  have hlt : (tables symbols).strings.length < 2 ^ 32 := by
    change stringsLength symbols < 2 ^ 32
    simp only [outputSize] at h
    omega
  exact sectionLength_toNat hlt

theorem symtabView_eq (h : tablesEnd symbols + 0x1000 ≤ 2 ^ 32) : symtabView stack symbols =
    ⟨0x1000, symbols.length, stringsOff symbols, stringsLength symbols⟩ := by
  have hcount : symbols.length ≤ symbols.length * (8 + T.size) :=
    Nat.le_mul_of_pos_right _ (by omega)
  have hnsyms : (toU32 symbols.length).toNat = symbols.length := by
    rw [tablesEnd] at h
    exact toNat_toU32_of_lt (by omega)
  have hstroff : (toU32 (0x1000 + (tables symbols).symbols.length)).toNat = stringsOff symbols := by
    rw [tablesEnd_eq_stringsOff] at h
    rw [length_tables_symbols, ← stringsOff]
    exact toNat_toU32_of_lt (by omega)
  have hstrsize : (toU32 (tables symbols).strings.length).toNat = stringsLength symbols := by
    rw [tablesEnd_eq_stringsOff] at h
    apply toNat_toU32_of_lt
    change stringsLength symbols < 2 ^ 32
    omega
  calc symtabView stack symbols
      = ⟨0x1000, (toU32 symbols.length).toNat,
          (toU32 (0x1000 + (tables symbols).symbols.length)).toNat,
          (toU32 (tables symbols).strings.length).toNat⟩ := rfl
    _ = _ := by rw [hnsyms, hstroff, hstrsize]

theorem dwarfView_fileoff (h : tablesEnd symbols + 0x1000 ≤ 2 ^ 32) :
    (dwarfView stack symbols off).fileoff = lineOff symbols := by
  rw [← tables_dwarfStart h]
  exact toNat_setWidth_u32 T _

theorem dwarfView_filesize (h : outputSize symbols < 2 ^ 32) :
    lineOff symbols + (dwarfView stack symbols off).filesize = outputSize symbols := by
  have hle : lineOff symbols ≤ outputSize symbols := by
    simp only [outputSize, strOff, abbrevOff, infoOff]
    omega
  have hsize : (dwarfView stack symbols off).filesize =
      ((tables symbols).endOffset - (tables symbols).dwarfStart).toNat := toNat_setWidth_u32 T _
  have hstart := tables_dwarfStart (tablesEnd_fits h)
  rw [hsize, BitVec.toNat_sub_of_le (by rw [BitVec.le_def, hstart, endOffset_toNat h]; exact hle),
    endOffset_toNat h, hstart]
  omega

end Sizes

end DSYMCreator.Macho
