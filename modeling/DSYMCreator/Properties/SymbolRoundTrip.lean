import DSYMCreator.Tool.HeaderViews

/-!
# The symbol table read back from the file

A Mach-O reader that follows the symbol table command gets the list of symbols
that went in: names, addresses and order. Repeated names share the offset of the
last one, which is still a place where their bytes stand.
-/
namespace DSYMCreator

open Binary Binary.Parser Text

namespace Macho

open StringTable

variable {T : AddrType} {stack : StackContents} {uuid : StdString} {symbols : List (Symbol T)}
  {off : Addr T}

/-- The record of a symbol as the reader sees it. -/
def recordView (symbols : List (Symbol T)) (s : Symbol T) : MachO.Nlist :=
  (SymbolTable.record (nameOffset (symbols.map Symbol.name)) s).view

theorem readSymbols_image (h : Fits uuid symbols) :
    MachO.readSymbols T.is64 (image stack uuid symbols off) (symtabView stack symbols) =
      some (symbols.map (recordView symbols)) := by
  have htable : Reads (times (MachO.nlist T.is64) symbols.length) (tables symbols).symbols
      (symbols.map (recordView symbols)) :=
    reads_times fun s _ => Nlist.reads _
  have hat : OccursAt (image stack uuid symbols off) 0x1000 (tables symbols).symbols :=
    image_symbols h
  obtain ⟨after, hdrop⟩ := hat.drop_eq
  unfold MachO.readSymbols
  rw [symtabView_eq h.tables]
  simp only
  rw [hdrop, htable.value?]

theorem image_name (h : Fits uuid symbols) {s : Symbol T} (hs : s ∈ symbols) :
    OccursAt (image stack uuid symbols off)
      (stringsOff symbols + (recordView symbols s).nStrx) (s.name ++ [0]) := by
  have hat := nameOffset_occursAt (List.mem_map_of_mem hs) h.names_lt
  exact (image_strings h).trans hat

theorem symbolName_image (h : Fits uuid symbols) {s : Symbol T} (hs : s ∈ symbols)
    (hnul : 0 ∉ s.name) :
    MachO.symbolName (image stack uuid symbols off) (symtabView stack symbols)
      (recordView symbols s) = some s.name := by
  have hat : OccursAt (image stack uuid symbols off) _ _ := image_name h hs
  obtain ⟨after, hdrop⟩ := hat.drop_eq
  unfold MachO.symbolName
  rw [symtabView_eq h.tables]
  simp only
  rw [hdrop, (reads_cString hnul).value?]

theorem name_inside (h : Fits uuid symbols) {s : Symbol T} (hs : s ∈ symbols) :
    (recordView symbols s).nStrx + s.name.length + 1 ≤ stringsLength symbols := by
  have hbound := (nameOffset_occursAt (List.mem_map_of_mem hs) h.names_lt).bound
  rw [List.length_append, List.length_singleton, ← Nat.add_assoc] at hbound
  exact hbound

/-- What a list of records read from a file says about the symbols `symbols`. -/
structure SymbolsReadBack (symbols : List (Symbol T)) (file : ByteBuffer) (f : MachO.File)
    (t : MachO.Symtab) (records : List MachO.Nlist) : Prop where
  onlySymtab : f.symtabs = [t]
  read : MachO.readSymbols f.header.is64 file t = some records
  contents : (records.map fun n => (MachO.symbolName file t n, n.nValue)) =
    symbols.map fun s => (some s.name, s.base.toNat)
  inside : ∀ n ∈ records, ∀ name, MachO.symbolName file t n = some name →
    n.nStrx + name.length + 1 ≤ t.strsize
  inText : ∀ n ∈ records, n.nType = N_SECT.toNat ∧
    ∃ seg ∈ f.segments, ∃ s ∈ seg.sections, f.sectionOrdinal n.nSect = some s ∧
      s.sectname = ascii "__text" ∧ s.segname = ascii "__TEXT" ∧ seg.segname = ascii "__TEXT"

theorem image_readBack (h : Fits uuid symbols) (hnul : ∀ s ∈ symbols, 0 ∉ s.name) :
    SymbolsReadBack symbols (image stack uuid symbols off) (fileView stack uuid symbols off)
      (symtabView stack symbols) (symbols.map (recordView symbols)) where
  onlySymtab := fileView_symtabs
  read := by
    have hwidth : (fileView stack uuid symbols off).header.is64 = T.is64 := machHeader_is64
    rw [hwidth, readSymbols_image h]
  contents := by
    rw [List.map_map]
    apply List.map_congr_left
    intro s hs
    rw [Function.comp_apply, symbolName_image h hs (hnul s hs)]
    rfl
  inside := by
    intro n hn name hname
    obtain ⟨s, hs, rfl⟩ := List.mem_map.mp hn
    rw [symbolName_image h hs (hnul s hs), Option.some_inj] at hname
    subst hname
    rw [symtabView_eq h.tables]
    exact name_inside h hs
  inText := by
    intro n hn
    obtain ⟨s, hs, rfl⟩ := List.mem_map.mp hn
    refine ⟨rfl, textView (T := T) stack, ?_, textSectionView stack T, ?_, ?_,
      textSectionView_sectname, textSectionView_segname, textView_segname⟩
    · rw [fileView_segments]
      exact List.mem_cons_self
    · rw [textView_sections]
      exact List.mem_cons_self
    · -- the ordinal 1 is the first header of the first segment
      change (fileView stack uuid symbols off).sections[0]? = _
      rw [fileView_sections]
      rfl

/-- Every dump of a file shorter than `2 ^ 32` bytes returns, and the symbols are read
back from the file. -/
theorem dump_symbols_read_back (stack : StackContents) (uuid : StdString)
    (symbols : List (Symbol T)) (off : Addr T) (hnul : ∀ s ∈ symbols, 0 ∉ s.name)
    (huuid : (cleanUuid uuid).length = 32) (hsize : outputSize symbols < 2 ^ 32) :
    ∃ buf f t records, dump stack uuid symbols off = .ok buf ∧
      buf.length = outputSize symbols ∧ MachO.readFile buf = some f ∧
      SymbolsReadBack symbols buf f t records := by
  have hfits : Fits uuid symbols := ⟨huuid, tablesEnd_fits hsize⟩
  exact ⟨_, _, _, _, hfits.dump_eq stack off, length_image hfits, readFile_image,
    image_readBack hfits hnul⟩

theorem dump_symbols_read_back_mixed :
    ∃ buf f t records,
      dump clearStack usageUuid (mixedSymbols .uint32) 0x40000 = .ok buf ∧
      buf.length = outputSize (mixedSymbols .uint32) ∧ MachO.readFile buf = some f ∧
      SymbolsReadBack (mixedSymbols .uint32) buf f t records :=
  dump_symbols_read_back clearStack usageUuid _ _ (by decide) (by decide)
    (outputSize_mixedSymbols .uint32)

end Macho
end DSYMCreator
