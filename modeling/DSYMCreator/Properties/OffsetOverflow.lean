import DSYMCreator.Properties.FileLayout
import DSYMCreator.Tool.DumpOutcomes

/-!
# Which overflows of 32-bit offsets go unnoticed

The check in front of the DWARF sections sees every overflow of the tables, unless
a name has been copied out of the string buffer before. No check follows the
sections themselves: when the strings start behind `2 ^ 32`, the file is returned
with their offset wrapped.
-/
namespace DSYMCreator.Macho

open Binary StringTable Text

variable {T : AddrType}

/-- The offset and the size in a header are those of the data, in unbounded integers. -/
structure Describes (file : ByteBuffer) (off size pos : ℕ) (data : ByteBuffer) : Prop where
  off_eq : off = pos
  size_eq : size = data.length
  data_at : OccursAt file pos data

/-- All offsets and sizes of a file are true. -/
structure TrueOffsets (file : ByteBuffer) (hs : Headers) (symbols : List (Symbol T)) : Prop where
  symoff : hs.symtab.symoff = 0x1000
  records : OccursAt file 0x1000 (tables symbols).symbols
  strings : Describes file hs.symtab.stroff hs.symtab.strsize (stringsOff symbols)
    (tables symbols).strings
  debugLine : Describes file hs.debugLine.offset hs.debugLine.size (lineOff symbols)
    (tables symbols).debugLine
  debugInfo : Describes file hs.debugInfo.offset hs.debugInfo.size (infoOff symbols)
    (tables symbols).debugInfo
  debugAbbrev : Describes file hs.debugAbbrev.offset hs.debugAbbrev.size (abbrevOff symbols)
    (tables symbols).debugAbbrev
  debugStr : Describes file hs.debugStr.offset hs.debugStr.size (strOff symbols)
    (tables symbols).strings
  unitLength : leNat (slice file (infoOff symbols) 4) = infoLength symbols - 4

/-- An assertion fails, or all copies stay inside the string buffer and the file has true
offsets. -/
def OverflowNotSilent (stack : StackContents) (uuid : StdString) (symbols : List (Symbol T))
    (off : Addr T) : Prop :=
  (∃ a, dump stack uuid symbols off = .error (.assertion a)) ∨
    ∃ st buf f hs, copyNames (symbols.map Symbol.name) = .ok st ∧
      dump stack uuid symbols off = .ok buf ∧ MachO.readFile buf = some f ∧ hs.FoundIn f ∧
      TrueOffsets buf hs symbols

/-- The names stay inside the string buffer, and if the tables fit, the strings of the DWARF
sections start below `2 ^ 32`. -/
structure OverflowCaught (symbols : List (Symbol T)) : Prop where
  names : stringsLength symbols < 2 ^ 32 ∨
    (stringsLength symbols % 2 ^ 32 = 2 ^ 32 - 1 ∧ InBlocks (symbols.map Symbol.name))
  sections : tablesEnd symbols + 0x1000 ≤ 2 ^ 32 → strOff symbols < 2 ^ 32

section

variable {stack : StackContents} {uuid : StdString} {symbols : List (Symbol T)} {off : Addr T}

theorem image_unitLength (h : Fits uuid symbols) (hlen : infoLength symbols < 2 ^ 32) :
    leNat (slice (image stack uuid symbols off) (infoOff symbols) 4) = infoLength symbols - 4 := by
  have hunit := DwarfDebugInfoSection.length_unitBytes
    (nameOffset (symbols.map Symbol.name)) symbols
  have hfield : OccursAt (image stack uuid symbols off) (infoOff symbols) (u32Bytes _) :=
    (image_debugInfo h).left
  have hslice := hfield.slice_eq
  rw [length_u32Bytes] at hslice
  have hlength : infoLength symbols = 15 + symbols.length * (5 + 2 * T.size) := rfl
  rw [hslice, u32Bytes, hunit, toNat_toU32_of_lt (by omega), leNat_leBytes_of_lt (by omega)]
  omega

/-- The headers of a file whose sections start below `2 ^ 32` are true, wherever it ends. -/
theorem image_trueOffsets (h : Fits uuid symbols) (hstr : strOff symbols < 2 ^ 32) :
    TrueOffsets (image stack uuid symbols off) (headerViews stack symbols off) symbols := by
  have htables := h.tables
  have hinfoLength : (tables symbols).debugInfo.length = infoLength symbols :=
    length_tables_debugInfo symbols
  have hinfo : infoOff symbols < 2 ^ 32 ∧ abbrevOff symbols < 2 ^ 32 ∧ infoLength symbols < 2 ^ 32 := by
    simp only [strOff, abbrevOff] at hstr ⊢
    omega
  have hsymtab : symtabView stack symbols = _ := symtabView_eq htables
  refine ⟨?_, image_symbols h, ⟨?_, ?_, image_strings h⟩, ⟨?_, ?_, image_debugLine h⟩,
    ⟨?_, ?_, image_debugInfo h⟩, ⟨?_, ?_, image_debugAbbrev h⟩, ⟨?_, ?_, image_debugStr h⟩, ?_⟩
  · exact congrArg MachO.Symtab.symoff hsymtab
  · exact congrArg MachO.Symtab.stroff hsymtab
  · exact congrArg MachO.Symtab.strsize hsymtab
  · exact lineView_offset htables
  · exact lineView_size
  · exact (infoOffset_mod htables).trans (Nat.mod_eq_of_lt hinfo.1)
  · exact sectionLength_toNat (by rw [hinfoLength]; exact hinfo.2.2)
  · exact (abbrevOffset_mod htables).trans (Nat.mod_eq_of_lt hinfo.2.1)
  · exact abbrevView_size
  · exact (strOffset_mod htables).trans (Nat.mod_eq_of_lt hstr)
  · exact sectionLength_toNat h.names_lt
  · exact image_unitLength h hinfo.2.2

theorem strOff_lt_of_trueOffsets {hs : Headers} (h : Fits uuid symbols)
    (hfound : hs.FoundIn (fileView stack uuid symbols off))
    (htrue : TrueOffsets (image stack uuid symbols off) hs symbols) : strOff symbols < 2 ^ 32 := by
  have hview := hfound.debugStr
  rw [findSection_str, Option.some_inj] at hview
  have hoffset : (strView stack symbols off).offset = strOff symbols % 2 ^ 32 :=
    strOffset_mod h.tables
  have hstr := htrue.debugStr.off_eq
  rw [← hview, hoffset] at hstr
  rw [← hstr]
  exact Nat.mod_lt _ (by norm_num)

/-- A file whose strings start behind `2 ^ 32` is returned all the same. -/
theorem not_overflowNotSilent (h : Fits uuid symbols) (hstr : ¬ strOff symbols < 2 ^ 32) :
    ¬ OverflowNotSilent stack uuid symbols off := by
  have hdump := h.dump_eq stack off
  rintro (⟨a, herror⟩ | ⟨st, buf, f, hs, -, hok, hread, hfound, htrue⟩)
  · rw [hdump] at herror
    cases herror
  · rw [hdump, Except.ok.injEq] at hok
    subst hok
    rw [readFile_image, Option.some_inj] at hread
    subst hread
    exact hstr (strOff_lt_of_trueOffsets h hfound htrue)

/-- Overflows are caught exactly when the names stay inside the string buffer and no section
of a returned file starts behind `2 ^ 32`. -/
theorem overflowNotSilent_iff (stack : StackContents) (uuid : StdString)
    (symbols : List (Symbol T)) (off : Addr T) (huuid : (cleanUuid uuid).length = 32) :
    OverflowNotSilent stack uuid symbols off ↔ OverflowCaught symbols := by
  constructor
  · intro h
    have hcopies : CopiesFit (symbols.map Symbol.name) := by
      by_contra hno
      have hdump : dump stack uuid symbols off = .error .outOfBounds :=
        dump_of_not_copiesFit stack off hno
      rcases h with ⟨a, herror⟩ | ⟨st, buf, f, hs, -, hok, -⟩
      · rw [hdump] at herror
        cases herror
      · rw [hdump] at hok
        cases hok
    refine ⟨(copiesFit_iff _).mp hcopies, ?_⟩
    intro htables
    by_contra hstr
    exact not_overflowNotSilent ⟨huuid, htables⟩ hstr h
  · rintro ⟨hnames, hsections⟩
    have hcopies : CopiesFit (symbols.map Symbol.name) := (copiesFit_iff _).mpr hnames
    by_cases htables : tablesEnd symbols + 0x1000 ≤ 2 ^ 32
    · have hfits : Fits uuid symbols := ⟨huuid, htables⟩
      obtain ⟨st, hrun, -⟩ := exists_dump_of_copiesFit hcopies
      exact .inr ⟨st, _, _, _, hrun, hfits.dump_eq stack off, readFile_image,
        headerViews_foundIn stack symbols off uuid, image_trueOffsets hfits (hsections htables)⟩
    · exact .inl ⟨_, dump_of_not_fits stack off hcopies huuid htables⟩

theorem overflowNotSilent_iff_mixed :
    OverflowNotSilent clearStack usageUuid (mixedSymbols .uint32) 0 ↔
      OverflowCaught (mixedSymbols .uint32) :=
  overflowNotSilent_iff clearStack usageUuid (mixedSymbols .uint32) 0 (by decide)

/-- Symbols without names: the tables take 13 bytes for each, and so do the entries of the
info section in front of the strings. -/
theorem tablesEnd_nameless (n : ℕ) (s : Symbol .uint32) (hs : s.name = []) :
    tablesEnd (List.replicate n s) = 0x1000 + 13 * n := by
  have hnames : (concatNames ((List.replicate n s).map Symbol.name)).length = n := by
    rw [length_concatNames, List.map_replicate, hs, List.map_replicate, List.sum_replicate]
    simp
  rw [tablesEnd, hnames, List.length_replicate]
  simp only [AddrType.size]
  omega

theorem nameless_not_caught {n : ℕ} {s : Symbol .uint32} (hs : s.name = [])
    (hfit : 0x2000 + 13 * n ≤ 2 ^ 32) (hbehind : 2 ^ 32 ≤ 26 * n) :
    ¬ OverflowNotSilent clearStack usageUuid (List.replicate n s) 0 := by
  have hend := tablesEnd_nameless n s hs
  have hfits : Fits usageUuid (List.replicate n s) := ⟨by decide, by omega⟩
  apply not_overflowNotSilent hfits
  have hle := tablesEnd_le_lineOff (List.replicate n s)
  simp only [strOff, abbrevOff, infoOff, infoLength, List.length_replicate, AddrType.size]
  omega

theorem nameless_silent : ¬ OverflowNotSilent clearStack usageUuid
    (List.replicate 200000000 (⟨[], 0, 0⟩ : Symbol .uint32)) 0 :=
  nameless_not_caught rfl (by norm_num) (by norm_num)

end

end DSYMCreator.Macho
