import DSYMCreator.Properties.FileLayout
import DSYMCreator.Formats.Dwarf

/-!
# Skipping units by their lengths

The unit of each section is as long as its length field says. The line header is
the memory of a C++ object, so behind its 16-bit version stand two bytes of
padding and every later field is two bytes too far: a reader takes the length of
the header from the wrong place and is sent far behind the unit.
-/
namespace DSYMCreator.Macho

open Binary Binary.Parser StringTable Text DwarfDebugInfoSection

variable {T : AddrType}

/-- The units of `sec` tile it and have version 2. -/
def UnitsTile (sec : ByteBuffer) : Prop :=
  ∃ us, Dwarf.units sec = some us ∧ ∀ u ∈ us, Dwarf.unitVersion u = some 2

/-- The length of a line program's header stays inside its unit. -/
def HeaderInside (unit : ByteBuffer) : Prop :=
  ∃ length headerLength, (uint 4).value? unit = some length ∧
    Dwarf.headerLength unit = some headerLength ∧ 6 + 4 + headerLength ≤ length + 4

/-- A reader can step through both debug sections of the file by their lengths. -/
def DebugUnitsSkippable (file : ByteBuffer) : Prop :=
  ∃ f info line, MachO.readFile file = some f ∧
    f.findSection (ascii "__debug_info") = some info ∧
    f.findSection (ascii "__debug_line") = some line ∧
    UnitsTile (MachO.sectionData file info) ∧ UnitsTile (MachO.sectionData file line) ∧
    ∀ us, Dwarf.units (MachO.sectionData file line) = some us → ∀ u ∈ us, HeaderInside u

/-- The line section, whatever the symbols are. -/
def lineBytes : ByteBuffer := [16, 0, 0, 0, 2, 0, 0, 0, 10, 0, 0, 0, 1, 1, 0, 0, 1, 0, 0, 0]

theorem lineBytes_units : Dwarf.units lineBytes = some [lineBytes] := by decide

/-- The bytes behind the version are the padding and half of the length: `10 * 2 ^ 16`. -/
theorem lineBytes_headerLength : Dwarf.headerLength lineBytes = some 0xa0000 := by decide

theorem lineBytes_not_inside : ¬ HeaderInside lineBytes := by
  rintro ⟨length, headerLength, hlength, hheader, hle⟩
  have hunit : (uint 4).value? lineBytes = some 16 := by decide
  rw [hunit, Option.some_inj] at hlength
  rw [lineBytes_headerLength, Option.some_inj] at hheader
  omega

theorem lineBytes_tile : UnitsTile lineBytes :=
  ⟨_, lineBytes_units, fun u hu => by rw [List.mem_singleton.mp hu]; decide⟩

theorem infoBytes_tile {strx : StdString → BitVec 32} {symbols : List (Symbol T)}
    (hlen : (unitBytes strx symbols).length < 2 ^ 32) : UnitsTile (infoBytes strx symbols) := by
  refine ⟨[infoBytes strx symbols], ?_, ?_⟩
  · unfold infoBytes
    rw [u32Bytes, toNat_toU32_of_lt hlen]
    exact Dwarf.units_single hlen
  · intro u hu
    rw [List.mem_singleton.mp hu, infoBytes, Dwarf.unitVersion,
      List.drop_left' (length_u32Bytes _)]
    have hversion : Reads (uint 2) (u16Bytes 2) 2 := reads_uint (by decide)
    simp only [unitBytes, List.append_assoc]
    exact hversion.value? _

section

variable {stack : StackContents} {uuid : StdString} {symbols : List (Symbol T)} {off : Addr T}

theorem image_not_skippable (h : Fits uuid symbols) :
    ¬ DebugUnitsSkippable (image stack uuid symbols off) := by
  rintro ⟨f, info, line, hf, -, hline, -, -, hinside⟩
  rw [readFile_image, Option.some_inj] at hf
  subst hf
  rw [findSection_line, Option.some_inj] at hline
  subst hline
  rw [sectionData_line h] at hinside
  exact lineBytes_not_inside (hinside _ lineBytes_units _ List.mem_cons_self)

/-- No file's line section can be read by its header length, although the units of both
sections tile them and have the right version. -/
theorem debug_line_header_leaves_unit {buf : ByteBuffer}
    (hdump : dump stack uuid symbols off = .ok buf) (hsize : buf.length < 2 ^ 32) :
    ¬ DebugUnitsSkippable buf ∧
      ∃ f info line, MachO.readFile buf = some f ∧
        f.findSection (ascii "__debug_info") = some info ∧
        f.findSection (ascii "__debug_line") = some line ∧
        UnitsTile (MachO.sectionData buf info) ∧ UnitsTile (MachO.sectionData buf line) ∧
        Dwarf.headerLength (MachO.sectionData buf line) = some 0xa0000 := by
  obtain ⟨hfits, hbuf⟩ := (dump_eq_ok_iff ..).mp hdump
  rw [hbuf, length_image hfits] at hsize
  have hunit : (unitBytes (nameOffset (symbols.map Symbol.name)) symbols).length < 2 ^ 32 := by
    rw [length_unitBytes]
    simp only [outputSize, strOff, abbrevOff, infoLength] at hsize
    omega
  rw [hbuf]
  refine ⟨image_not_skippable hfits, _, _, _, readFile_image, findSection_info, findSection_line,
    ?_, ?_, ?_⟩
  · rw [sectionData_info hfits hsize]
    exact infoBytes_tile hunit
  · rw [sectionData_line hfits]
    exact lineBytes_tile
  · rw [sectionData_line hfits]
    exact lineBytes_headerLength

theorem debug_line_header_leaves_unit_mixed :
    ¬ DebugUnitsSkippable (image clearStack usageUuid (mixedSymbols .uint64) 0) := by
  have hfits := fits_mixedSymbols .uint64
  have hsize : (image clearStack usageUuid (mixedSymbols .uint64) 0).length < 2 ^ 32 := by
    rw [length_image hfits]
    exact outputSize_mixedSymbols .uint64
  exact (debug_line_header_leaves_unit (hfits.dump_eq clearStack 0) hsize).1

theorem empty_list_not_skippable :
    ¬ ∀ buf, dump clearStack usageUuid ([] : List (Symbol .uint32)) 0 = .ok buf →
      buf.length < 2 ^ 32 → DebugUnitsSkippable buf := by
  intro h
  have hfits : Fits usageUuid ([] : List (Symbol .uint32)) := ⟨by decide, by decide⟩
  apply image_not_skippable hfits (h _ (hfits.dump_eq clearStack 0) _)
  rw [length_image hfits]
  decide

end

end DSYMCreator.Macho
