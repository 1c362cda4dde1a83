import DSYMCreator.Tool.FileImage

/-!
# What a reader finds in the file

The pieces of the image stand at the running sums of their lengths, and the
`uint32_t` offsets in the commands are these sums as long as the file is shorter
than `2 ^ 32` bytes. The walk over the load commands does not need that bound.
-/
namespace DSYMCreator.Macho

open Binary Binary.Parser StringTable Text

variable {T : AddrType}

/-! ## Where the pieces stand -/

def stringsOff (symbols : List (Symbol T)) : ℕ := 0x1000 + symbols.length * (8 + T.size)
def stringsLength (symbols : List (Symbol T)) : ℕ := (concatNames (symbols.map Symbol.name)).length
def infoLength (symbols : List (Symbol T)) : ℕ := 15 + symbols.length * (5 + 2 * T.size)

/-- The page boundary behind the tables: the DWARF segment starts here. -/
def lineOff (symbols : List (Symbol T)) : ℕ := roundUp 0x1000 (tablesEnd symbols)
def infoOff (symbols : List (Symbol T)) : ℕ := lineOff symbols + 20
def abbrevOff (symbols : List (Symbol T)) : ℕ := infoOff symbols + infoLength symbols
def strOff (symbols : List (Symbol T)) : ℕ := abbrevOff symbols + 18

/-- The length of the whole file. -/
def outputSize (symbols : List (Symbol T)) : ℕ := strOff symbols + stringsLength symbols

theorem tablesEnd_le_lineOff (symbols : List (Symbol T)) : tablesEnd symbols ≤ lineOff symbols :=
  le_roundUp (by norm_num) _

theorem tablesEnd_eq_stringsOff (symbols : List (Symbol T)) :
    tablesEnd symbols = stringsOff symbols + stringsLength symbols := rfl

/-- A file shorter than `2 ^ 32` leaves a whole page behind its tables. -/
theorem tablesEnd_fits {symbols : List (Symbol T)} (h : outputSize symbols < 2 ^ 32) :
    tablesEnd symbols + 0x1000 ≤ 2 ^ 32 := by
  apply (roundUp_lt_iff (by norm_num) (by norm_num)).1
  have hle : lineOff symbols ≤ outputSize symbols := by
    simp only [outputSize, strOff, abbrevOff, infoOff]
    omega
  exact lt_of_le_of_lt hle h

theorem outputSize_mixedSymbols (T : AddrType) : outputSize (mixedSymbols T) < 2 ^ 32 := by
  cases T <;> decide

theorem fits_mixedSymbols (T : AddrType) : Fits usageUuid (mixedSymbols T) :=
  ⟨by decide, tablesEnd_fits (outputSize_mixedSymbols T)⟩

theorem tables_dwarfStart {symbols : List (Symbol T)}
    (h : tablesEnd symbols + 0x1000 ≤ 2 ^ 32) :
    (tables symbols).dwarfStart.toNat = lineOff symbols := by
  rw [dwarfStart_of_fits (by rwa [tablesEnd_eq]), tablesEnd_eq, lineOff]

section Pieces

variable {commands : ByteBuffer} {b : Buffers}

theorem layOut_commands (commands : ByteBuffer) (b : Buffers) :
    OccursAt (layOut commands b) 0 commands :=
  ⟨[], zeros (0x1000 - commands.length) ++ b.symbols ++ b.strings ++
    zeros (b.dwarfStart.toNat - (0x1000 + b.symbols.length + b.strings.length)) ++
    b.debugLine ++ b.debugInfo ++ b.debugAbbrev ++ b.strings, by simp [layOut], rfl⟩

theorem layOut_firstPage (commands : ByteBuffer) (b : Buffers) :
    OccursAt (layOut commands b) commands.length (zeros (0x1000 - commands.length)) :=
  ⟨commands, b.symbols ++ b.strings ++
    zeros (b.dwarfStart.toNat - (0x1000 + b.symbols.length + b.strings.length)) ++
    b.debugLine ++ b.debugInfo ++ b.debugAbbrev ++ b.strings, by simp [layOut], rfl⟩

theorem layOut_tables (h : commands.length ≤ 0x1000) :
    OccursAt (layOut commands b) 0x1000 (b.symbols ++ (b.strings ++
      zeros (b.dwarfStart.toNat - (0x1000 + b.symbols.length + b.strings.length)))) := by
  refine ⟨commands ++ zeros (0x1000 - commands.length),
    b.debugLine ++ b.debugInfo ++ b.debugAbbrev ++ b.strings, by simp [layOut], ?_⟩
  rw [List.length_append, length_zeros]
  omega

theorem layOut_sections (h : commands.length ≤ 0x1000)
    (ht : 0x1000 + b.symbols.length + b.strings.length ≤ b.dwarfStart.toNat) :
    OccursAt (layOut commands b) b.dwarfStart.toNat
      (b.debugLine ++ (b.debugInfo ++ (b.debugAbbrev ++ b.strings))) := by
  refine ⟨commands ++ zeros (0x1000 - commands.length) ++ b.symbols ++ b.strings ++
    zeros (b.dwarfStart.toNat - (0x1000 + b.symbols.length + b.strings.length)), [],
    by simp [layOut], ?_⟩
  simp only [List.length_append, length_zeros]
  omega

theorem length_layOut (h : commands.length ≤ 0x1000)
    (ht : 0x1000 + b.symbols.length + b.strings.length ≤ b.dwarfStart.toNat) :
    (layOut commands b).length = b.dwarfStart.toNat + b.debugLine.length + b.debugInfo.length +
      b.debugAbbrev.length + b.strings.length := by
  simp only [layOut, List.length_append, length_zeros]
  omega

end Pieces

section Image

variable {stack : StackContents} {uuid : StdString} {symbols : List (Symbol T)} {off : Addr T}

variable (stack uuid symbols off) in
theorem image_commands : OccursAt (image stack uuid symbols off) 0
    (commandArea stack (tables symbols) symbols.length (alignTo off kAlignBase) (cleanUuid uuid)) :=
  layOut_commands ..

variable (stack uuid symbols off) in
theorem image_firstPage : OccursAt (image stack uuid symbols off) (commandLength T)
    (zeros (0x1000 - commandLength T)) := by
  have hlength := length_commandArea stack (tables symbols) symbols.length
    (alignTo off kAlignBase) (cleanUuid uuid)
  have h := layOut_firstPage (commandArea stack (tables symbols) symbols.length
    (alignTo off kAlignBase) (cleanUuid uuid)) (tables symbols)
  rwa [hlength] at h

theorem image_tables (h : Fits uuid symbols) :
    OccursAt (image stack uuid symbols off) 0x1000
      ((tables symbols).symbols ++ ((tables symbols).strings ++
        zeros (lineOff symbols - tablesEnd symbols))) := by
  have hlength := length_commandArea stack (tables symbols) symbols.length
    (alignTo off kAlignBase) (cleanUuid uuid)
  have htables := layOut_tables (b := tables symbols) (hlength.trans_le (commandLength_le T))
  rwa [tables_dwarfStart h.tables, tablesEnd_eq] at htables

theorem image_symbols (h : Fits uuid symbols) :
    OccursAt (image stack uuid symbols off) 0x1000 (tables symbols).symbols :=
  (image_tables h).left

theorem image_strings (h : Fits uuid symbols) :
    OccursAt (image stack uuid symbols off) (stringsOff symbols) (tables symbols).strings :=
  (image_tables h).right.left.cast (by rw [length_tables_symbols, stringsOff])

theorem image_padding (h : Fits uuid symbols) :
    OccursAt (image stack uuid symbols off) (tablesEnd symbols)
      (zeros (lineOff symbols - tablesEnd symbols)) :=
  (image_tables h).right.right.cast (by rw [tablesEnd_eq])

theorem image_sections (h : Fits uuid symbols) :
    OccursAt (image stack uuid symbols off) (lineOff symbols)
      ((tables symbols).debugLine ++ ((tables symbols).debugInfo ++
        ((tables symbols).debugAbbrev ++ (tables symbols).strings))) := by
  have hlength := length_commandArea stack (tables symbols) symbols.length
    (alignTo off kAlignBase) (cleanUuid uuid)
  have hstart := tables_dwarfStart h.tables
  have hsections := layOut_sections (b := tables symbols) (hlength.trans_le (commandLength_le T))
    (by rw [tablesEnd_eq, hstart]; exact tablesEnd_le_lineOff symbols)
  rwa [hstart] at hsections

theorem image_debugLine (h : Fits uuid symbols) :
    OccursAt (image stack uuid symbols off) (lineOff symbols) (tables symbols).debugLine :=
  (image_sections h).left

theorem image_debugInfo (h : Fits uuid symbols) :
    OccursAt (image stack uuid symbols off) (infoOff symbols) (tables symbols).debugInfo :=
  (image_sections h).right.left.cast (by rw [length_tables_debugLine, infoOff])

theorem image_debugAbbrev (h : Fits uuid symbols) :
    OccursAt (image stack uuid symbols off) (abbrevOff symbols) (tables symbols).debugAbbrev :=
  (image_sections h).right.right.left.cast
    (by rw [length_tables_debugLine, length_tables_debugInfo]; rfl)

theorem image_debugStr (h : Fits uuid symbols) :
    OccursAt (image stack uuid symbols off) (strOff symbols) (tables symbols).strings :=
  (image_sections h).right.right.right.cast
    (by rw [length_tables_debugLine, length_tables_debugInfo, length_tables_debugAbbrev]; rfl)

theorem length_image (h : Fits uuid symbols) :
    (image stack uuid symbols off).length = outputSize symbols := by
  have hlength := length_commandArea stack (tables symbols) symbols.length
    (alignTo off kAlignBase) (cleanUuid uuid)
  have hstart := tables_dwarfStart h.tables
  rw [image, length_layOut (hlength.trans_le (commandLength_le T))
    (by rw [tablesEnd_eq, hstart]; exact tablesEnd_le_lineOff symbols), hstart,
    length_tables_debugLine, length_tables_debugInfo, length_tables_debugAbbrev]
  rfl

end Image

/-! ## The offsets in the commands -/

section Offsets

variable {symbols : List (Symbol T)}

/-- The running offset is the true place, modulo `2 ^ 32`. -/
theorem infoOffset_mod (h : tablesEnd symbols + 0x1000 ≤ 2 ^ 32) :
    (tables symbols).infoOffset.toNat = infoOff symbols % 2 ^ 32 := by
  have hlen : (toU32 (tables symbols).debugLine.length).toNat = 20 := rfl
  unfold Buffers.infoOffset
  rw [BitVec.toNat_add, tables_dwarfStart h, hlen, infoOff]

theorem abbrevOffset_mod (h : tablesEnd symbols + 0x1000 ≤ 2 ^ 32) :
    (tables symbols).abbrevOffset.toNat = abbrevOff symbols % 2 ^ 32 := by
  unfold Buffers.abbrevOffset
  rw [BitVec.toNat_add, infoOffset_mod h, length_tables_debugInfo, ← infoLength, toNat_toU32,
    ← Nat.add_mod, abbrevOff]

theorem strOffset_mod (h : tablesEnd symbols + 0x1000 ≤ 2 ^ 32) :
    (tables symbols).strOffset.toNat = strOff symbols % 2 ^ 32 := by
  have hlen : (toU32 (tables symbols).debugAbbrev.length).toNat = 18 := rfl
  unfold Buffers.strOffset
  rw [BitVec.toNat_add, abbrevOffset_mod h, hlen, Nat.mod_add_mod, strOff]

theorem infoOffset_toNat (h : outputSize symbols < 2 ^ 32) :
    (tables symbols).infoOffset.toNat = infoOff symbols := by
  rw [infoOffset_mod (tablesEnd_fits h), Nat.mod_eq_of_lt]
  simp only [outputSize, strOff, abbrevOff] at h
  omega

theorem abbrevOffset_toNat (h : outputSize symbols < 2 ^ 32) :
    (tables symbols).abbrevOffset.toNat = abbrevOff symbols := by
  rw [abbrevOffset_mod (tablesEnd_fits h), Nat.mod_eq_of_lt]
  simp only [outputSize, strOff] at h
  omega

theorem strOffset_toNat (h : outputSize symbols < 2 ^ 32) :
    (tables symbols).strOffset.toNat = strOff symbols := by
  rw [strOffset_mod (tablesEnd_fits h), Nat.mod_eq_of_lt]
  simp only [outputSize] at h
  omega

theorem endOffset_toNat (h : outputSize symbols < 2 ^ 32) :
    (tables symbols).endOffset.toNat = outputSize symbols := by
  have hlt : stringsLength symbols < 2 ^ 32 := by
    simp only [outputSize] at h
    omega
  unfold Buffers.endOffset
  rw [BitVec.toNat_add, strOffset_toNat h]
  have hlen : (toU32 (tables symbols).strings.length).toNat = stringsLength symbols :=
    toNat_toU32_of_lt hlt
  rw [hlen, ← outputSize, Nat.mod_eq_of_lt h]

end Offsets

/-! ## The walk over the load commands -/

section Walk

variable (stack : StackContents) (uuid : StdString) (symbols : List (Symbol T)) (off : Addr T)

/-- The two segments that the reader sees. -/
def textView : MachO.Segment :=
  (textSegmentCommand T stack).view [textSectionHeader T stack]

def dwarfView : MachO.Segment :=
  ((tables symbols).dwarfSegmentCommand stack (alignTo off kAlignBase)).view
    ((tables symbols).dwarfHeaders stack (alignTo off kAlignBase))

/-- A segment command with `n` section headers takes this many bytes. -/
def segmentExtent (T : AddrType) (n : ℕ) : ℕ :=
  40 + 4 * T.size + n * (60 + 2 * T.size + T.only64 4)

/-- The file that the reader sees: four commands, each as long as its `cmdsize` says. -/
def fileView : MachO.File where
  header := (machHeader T stack).view
  commands :=
    [⟨LC_UUID.toNat, 24, .uuid (uuidCommand stack (cleanUuid uuid)).uuid.toList, 24⟩,
     ⟨LC_SYMTAB.toNat, 24, .symtab ((tables symbols).symtabCommand stack symbols.length).view, 24⟩,
     ⟨T.lcSegment.toNat, segmentExtent T 1, .segment (textView (T := T) stack), segmentExtent T 1⟩,
     ⟨T.lcSegment.toNat, segmentExtent T 4, .segment (dwarfView stack symbols off),
      segmentExtent T 4⟩]

variable {stack uuid symbols off}

theorem textSegmentCommand_cmd : (textSegmentCommand T stack).cmd = T.lcSegment := rfl

theorem dwarfSegmentCommand_cmd :
    ((tables symbols).dwarfSegmentCommand stack (alignTo off kAlignBase)).cmd = T.lcSegment := rfl

theorem textSegmentCommand_cmdsize :
    (textSegmentCommand T stack).cmdsize.toNat = segmentExtent T 1 := by
  simp only [textSegmentCommand, sizeofSection_eq, sizeofSegmentCommand_eq, segmentExtent]
  cases T <;> rfl

theorem dwarfSegmentCommand_cmdsize :
    ((tables symbols).dwarfSegmentCommand stack (alignTo off kAlignBase)).cmdsize.toNat =
      segmentExtent T 4 := by
  simp only [Buffers.dwarfSegmentCommand, sizeofSection_eq, sizeofSegmentCommand_eq, segmentExtent]
  cases T <;> rfl

theorem machHeader_magic :
    (machHeader T stack).magic.toNat = if T.is64 then MachO.magic64 else MachO.magic32 := by
  cases T <;> rfl

theorem machHeader_size : (machHeader T stack).view.size = 28 + T.only64 4 := by
  cases T <;> rfl

theorem machHeader_is64 : (machHeader T stack).view.is64 = T.is64 := by
  cases T <;> rfl

/-- The walk from behind the header: each command stands where the previous one ends. -/
theorem readCommands_image :
    MachO.readCommands (image stack uuid symbols off) 4 (28 + T.only64 4) =
      some (fileView stack uuid symbols off).commands := by
  have hcommands := image_commands stack uuid symbols off
  rw [commandArea_eq] at hcommands
  have huuid := hcommands.right.left
  have hsymtab := hcommands.right.right.left
  have htext := hcommands.right.right.right.left
  have hdwarf := hcommands.right.right.right.right
  simp only [MachHeader.length_flatBytes, UUIDCommand.length_flatBytes,
    SymtabCommand.length_flatBytes, length_segmentBytes, Nat.zero_add] at huuid hsymtab htext hdwarf
  have hwalk := MachO.readCommands_cons huuid (UUIDCommand.reads _ rfl) <|
    MachO.readCommands_cons hsymtab (SymtabCommand.reads _ rfl) <|
    MachO.readCommands_cons htext
      (SegmentCommand.reads _ [textSectionHeader T stack] textSegmentCommand_cmd rfl) <|
    MachO.readCommands_cons (hdwarf.cast (by rw [textSegmentCommand_cmdsize]; rfl))
      (SegmentCommand.reads _ _ dwarfSegmentCommand_cmd rfl) (MachO.readCommands_zero _ _)
  simp only [UUIDCommand.length_flatBytes, SymtabCommand.length_flatBytes, length_segmentBytes,
    textSegmentCommand_cmdsize, dwarfSegmentCommand_cmdsize] at hwalk
  exact hwalk

theorem readFile_image : MachO.readFile (image stack uuid symbols off) =
    some (fileView stack uuid symbols off) := by
  have hcommands := image_commands stack uuid symbols off
  rw [commandArea_eq] at hcommands
  obtain ⟨rest, hdrop⟩ := hcommands.left.drop_eq
  rw [List.drop_zero] at hdrop
  have hmagic : (machHeader T stack).magic.toNat = MachO.magic32 ∨
      (machHeader T stack).magic.toNat = MachO.magic64 := by
    rw [machHeader_magic]
    cases T
    · exact .inl rfl
    · exact .inr rfl
  obtain ⟨rest', hheader⟩ := MachHeader.header_eq (machHeader T stack) hmagic rest
  rw [← hdrop] at hheader
  have hcount : (machHeader T stack).view.ncmds = 4 := rfl
  simp only [MachO.readFile, hheader, machHeader_size, hcount, readCommands_image, Option.map_some]
  rfl

end Walk

end DSYMCreator.Macho
