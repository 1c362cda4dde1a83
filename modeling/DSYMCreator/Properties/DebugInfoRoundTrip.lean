import DSYMCreator.Properties.FileLayout
import DSYMCreator.Formats.Dwarf

/-!
# The debug information read back from the file

A DWARF 2 reader that gets the sections by name out of the file decodes one
compile unit with one subprogram a symbol: its name and its address range. The
abbreviation table, the widths of the info section, the string offsets and the
section headers have to agree for that.
-/
namespace DSYMCreator

open Binary Binary.Parser Text

namespace DwarfDebugInfoSection

variable {T : AddrType}

/-- The two declarations of the abbreviation table. -/
def compileUnitDecl : Dwarf.AbbrevDecl :=
  ⟨1, DW_TAG_compile_unit, true, [⟨DW_AT_language, DW_FORM_data2⟩]⟩

def subprogramDecl : Dwarf.AbbrevDecl :=
  ⟨2, DW_TAG_subprogram, false,
    [⟨DW_AT_low_pc, DW_FORM_addr⟩, ⟨DW_AT_high_pc, DW_FORM_addr⟩, ⟨DW_AT_name, DW_FORM_strp⟩]⟩

theorem abbrevTable_dump :
    Dwarf.abbrevTable DwarfDebugAbbrevSection.dump 0 = some [compileUnitDecl, subprogramDecl] := by
  rw [DwarfDebugAbbrevSection.dump_eq]
  decide

/-- What a reader decodes the entries of the unit with. -/
def context (T : AddrType) (strings : ByteBuffer) : Dwarf.Context :=
  ⟨[compileUnitDecl, subprogramDecl], T.size, strings⟩

/-- The entry of one symbol as the reader sees it. -/
def functionDie (s : Symbol T) : Dwarf.Die :=
  .mk DW_TAG_subprogram
    [(DW_AT_low_pc, .address s.base.toNat), (DW_AT_high_pc, .address s.endAddr.toNat),
      (DW_AT_name, .string s.name)] []

/-- The compile unit entry as the reader sees it. -/
def unitDie (symbols : List (Symbol T)) : Dwarf.Die :=
  .mk DW_TAG_compile_unit [(DW_AT_language, .constant DW_LANG_ObjC)] (symbols.map functionDie)

/-- Every symbol's string stands in `strings` where `strx` says. -/
def StringsAt (strings : ByteBuffer) (strx : StdString → BitVec 32)
    (symbols : List (Symbol T)) : Prop :=
  ∀ s ∈ symbols, (0 : UInt8) ∉ s.name ∧ OccursAt strings (strx s.name).toNat (s.name ++ [0])

theorem reads_address (strings : ByteBuffer) (v : Addr T) :
    Reads (Dwarf.attrValue T.size strings DW_FORM_addr) (addrBytes T v) (.address v.toNat) :=
  (reads_bitVec v).bind_pure

theorem reads_name {strings : ByteBuffer} {strx : StdString → BitVec 32} {s : Symbol T}
    (hnul : (0 : UInt8) ∉ s.name) (hat : OccursAt strings (strx s.name).toNat (s.name ++ [0])) :
    Reads (Dwarf.attrValue T.size strings DW_FORM_strp) (u32Bytes (strx s.name))
      (.string s.name) :=
  Dwarf.reads_strp hat hnul (strx s.name).isLt

theorem reads_function {strings : ByteBuffer} {strx : StdString → BitVec 32} {s : Symbol T}
    (hnul : (0 : UInt8) ∉ s.name) (hat : OccursAt strings (strx s.name).toNat (s.name ++ [0])) :
    Reads ((context T strings).attrs subprogramDecl.attrs)
      (addrBytes T s.base ++ (addrBytes T s.endAddr ++ (u32Bytes (strx s.name) ++ [])))
      [(DW_AT_low_pc, .address s.base.toNat), (DW_AT_high_pc, .address s.endAddr.toNat),
        (DW_AT_name, .string s.name)] :=
  Dwarf.Context.reads_attrs_cons (reads_address strings s.base) <|
    Dwarf.Context.reads_attrs_cons (reads_address strings s.endAddr) <|
    Dwarf.Context.reads_attrs_cons (reads_name hnul hat) (reads_pure [])

theorem reads_functions {strings : ByteBuffer} {strx : StdString → BitVec 32}
    {symbols : List (Symbol T)} {fuel : ℕ} (hstrings : StringsAt strings strx symbols)
    (hfuel : symbols.length < fuel) :
    Reads ((context T strings).siblings fuel) (symbols.flatMap (functionBytes strx) ++ [0])
      (symbols.map functionDie) := by
  induction symbols generalizing fuel with
  | nil =>
    obtain ⟨fuel, rfl⟩ : ∃ k, fuel = k + 1 := ⟨fuel - 1, by omega⟩
    exact Dwarf.Context.reads_siblings_nil fuel
  | cons s symbols ih =>
    rw [List.length_cons] at hfuel
    obtain ⟨fuel, rfl⟩ : ∃ k, fuel = k + 1 := ⟨fuel - 1, by omega⟩
    obtain ⟨hnul, hat⟩ := hstrings s List.mem_cons_self
    have hrest := ih (fun t ht => hstrings t (List.mem_cons_of_mem s ht)) (show _ < fuel by omega)
    have hbytes : (s :: symbols).flatMap (functionBytes strx) ++ [0] =
        [2] ++ ((addrBytes T s.base ++ (addrBytes T s.endAddr ++ (u32Bytes (strx s.name) ++ []))) ++
          (symbols.flatMap (functionBytes strx) ++ [0])) := by
      have hcode : u8Bytes 2#8 = [2] := rfl
      simp [functionBytes, hcode]
    rw [hbytes]
    exact Dwarf.Context.reads_siblings_leaf (by decide) (by decide) rfl rfl
      (reads_function hnul hat) hrest

/-- The entries of the unit: the bytes behind its header. -/
def entryBytes (strx : StdString → BitVec 32) (symbols : List (Symbol T)) : ByteBuffer :=
  [1] ++ ((u16Bytes (BitVec.ofNat 16 DW_LANG_ObjC) ++ []) ++
    (symbols.flatMap (functionBytes strx) ++ [0]))

theorem reads_root {strings : ByteBuffer} {strx : StdString → BitVec 32}
    {symbols : List (Symbol T)} {fuel : ℕ} (hstrings : StringsAt strings strx symbols)
    (hfuel : symbols.length < fuel) :
    Reads ((context T strings).root fuel) (entryBytes strx symbols) (unitDie symbols) := by
  have hlanguage : Reads (Dwarf.attrValue T.size strings DW_FORM_data2)
      (u16Bytes (BitVec.ofNat 16 DW_LANG_ObjC)) (.constant DW_LANG_ObjC) :=
    (reads_uint (n := 2) (v := DW_LANG_ObjC) (by decide)).bind_pure
  have hattrs : Reads ((context T strings).attrs compileUnitDecl.attrs)
      (u16Bytes (BitVec.ofNat 16 DW_LANG_ObjC) ++ [])
      [(DW_AT_language, .constant DW_LANG_ObjC)] :=
    Dwarf.Context.reads_attrs_cons hlanguage (reads_pure [])
  exact Dwarf.Context.reads_root (by decide) rfl rfl hattrs (reads_functions hstrings hfuel)

theorem length_entryBytes (strx : StdString → BitVec 32) (symbols : List (Symbol T)) :
    symbols.length < (entryBytes strx symbols).length := by
  have hfunctions : (symbols.flatMap (functionBytes strx)).length =
      symbols.length * (5 + 2 * T.size) := by
    simp [List.length_flatMap, length_functionBytes]
  have hle : symbols.length ≤ symbols.length * (5 + 2 * T.size) :=
    Nat.le_mul_of_pos_right _ (by omega)
  simp only [entryBytes, List.length_append, hfunctions, List.length_singleton]
  omega

/-- The header of the unit in front of its entries. -/
def headerBytes (strx : StdString → BitVec 32) (symbols : List (Symbol T)) : ByteBuffer :=
  u32Bytes (toU32 (unitBytes strx symbols).length) ++ (u16Bytes 2 ++ (u32Bytes 0 ++
    (u8Bytes (BitVec.ofNat 8 T.size) ++ [])))

theorem infoBytes_eq (strx : StdString → BitVec 32) (symbols : List (Symbol T)) :
    infoBytes strx symbols = headerBytes strx symbols ++ entryBytes strx symbols := by
  have hcode : u8Bytes 1#8 = [1] := rfl
  have hnull : u8Bytes 0#8 = [0] := rfl
  simp [infoBytes, headerBytes, unitBytes, entryBytes, hcode, hnull]

theorem reads_header (strx : StdString → BitVec 32) (symbols : List (Symbol T)) :
    Reads Dwarf.unitHeader (headerBytes strx symbols) ⟨2, 0, T.size⟩ := by
  have hsize : Reads (uint 1) (u8Bytes (BitVec.ofNat 8 T.size)) T.size := by
    cases T <;> exact reads_uint (by decide)
  have hversion : Reads (uint 2) (u16Bytes 2) 2 := reads_uint (by decide)
  have hoffset : Reads (uint 4) (u32Bytes 0) 0 := reads_uint (by decide)
  exact (reads_bitVec (n := 4) (toU32 (unitBytes strx symbols).length)).bind <|
    hversion.bind <| hoffset.bind <| hsize.bind (reads_pure _)

theorem compileUnit_infoBytes {strings : ByteBuffer} {strx : StdString → BitVec 32}
    {symbols : List (Symbol T)} (hstrings : StringsAt strings strx symbols) :
    Dwarf.compileUnit DwarfDebugAbbrevSection.dump strings (infoBytes strx symbols) =
      some ⟨2, T.size, unitDie symbols⟩ := by
  rw [infoBytes_eq]
  exact Dwarf.compileUnit_eq (reads_header strx symbols) abbrevTable_dump
    (reads_root hstrings (length_entryBytes strx symbols))

theorem readDebugInfo_infoBytes {strings : ByteBuffer} {strx : StdString → BitVec 32}
    {symbols : List (Symbol T)} (hstrings : StringsAt strings strx symbols)
    (hlen : (unitBytes strx symbols).length < 2 ^ 32) :
    Dwarf.readDebugInfo (infoBytes strx symbols) DwarfDebugAbbrevSection.dump strings =
      some [⟨2, T.size, unitDie symbols⟩] := by
  have hunits : Dwarf.units (infoBytes strx symbols) = some [infoBytes strx symbols] := by
    unfold infoBytes
    rw [u32Bytes, toNat_toU32_of_lt hlen]
    exact Dwarf.units_single hlen
  simp only [Dwarf.readDebugInfo, hunits, List.mapM_cons, List.mapM_nil,
    compileUnit_infoBytes hstrings]
  rfl

end DwarfDebugInfoSection

namespace Macho

open StringTable DwarfDebugInfoSection

variable {T : AddrType}

/-- The strings of the symbols stand in the string table, whose copy is `__debug_str`. -/
theorem tables_stringsAt {symbols : List (Symbol T)} (hnul : ∀ s ∈ symbols, 0 ∉ s.name)
    (hlt : (concatNames (symbols.map Symbol.name)).length < 2 ^ 32) :
    StringsAt (tables symbols).strings (nameOffset (symbols.map Symbol.name)) symbols :=
  fun s hs => ⟨hnul s hs, nameOffset_occursAt (List.mem_map_of_mem hs) hlt⟩

/-- Every dump of a file shorter than `2 ^ 32` bytes returns, and its debug sections, found
by name, decode to one compile unit with the symbols as subprograms. -/
theorem dump_debug_info_read_back (stack : StackContents) (uuid : StdString)
    (symbols : List (Symbol T)) (off : Addr T) (hnul : ∀ s ∈ symbols, 0 ∉ s.name)
    (huuid : (cleanUuid uuid).length = 32) (hsize : outputSize symbols < 2 ^ 32) :
    ∃ buf f info abbrevs strings, dump stack uuid symbols off = .ok buf ∧
      buf.length = outputSize symbols ∧ MachO.readFile buf = some f ∧
      f.findSection (ascii "__debug_info") = some info ∧
      f.findSection (ascii "__debug_abbrev") = some abbrevs ∧
      f.findSection (ascii "__debug_str") = some strings ∧
      Dwarf.readDebugInfo (MachO.sectionData buf info) (MachO.sectionData buf abbrevs)
        (MachO.sectionData buf strings) = some [⟨2, T.size, unitDie symbols⟩] := by
  have hfits : Fits uuid symbols := ⟨huuid, tablesEnd_fits hsize⟩
  have hunit : (unitBytes (nameOffset (symbols.map Symbol.name)) symbols).length < 2 ^ 32 := by
    rw [length_unitBytes]
    simp only [outputSize, strOff, abbrevOff, infoLength] at hsize
    omega
  refine ⟨_, _, _, _, _, hfits.dump_eq stack off, length_image hfits,
    readFile_image, findSection_info, findSection_abbrev, findSection_str, ?_⟩
  rw [sectionData_info hfits hsize, sectionData_abbrev hfits hsize, sectionData_str hfits hsize]
  exact readDebugInfo_infoBytes (tables_stringsAt hnul hfits.names_lt) hunit

theorem dump_debug_info_read_back_mixed :
    ∃ buf f info abbrevs strings,
      dump clearStack usageUuid (mixedSymbols .uint64) 0x40000 = .ok buf ∧
      buf.length = outputSize (mixedSymbols .uint64) ∧
      MachO.readFile buf = some f ∧
      f.findSection (ascii "__debug_info") = some info ∧
      f.findSection (ascii "__debug_abbrev") = some abbrevs ∧
      f.findSection (ascii "__debug_str") = some strings ∧
      Dwarf.readDebugInfo (MachO.sectionData buf info) (MachO.sectionData buf abbrevs)
        (MachO.sectionData buf strings) =
          some [⟨2, 8, unitDie (mixedSymbols .uint64)⟩] :=
  dump_debug_info_read_back clearStack usageUuid _ _ (by decide) (by decide)
    (outputSize_mixedSymbols .uint64)

end Macho
end DSYMCreator
