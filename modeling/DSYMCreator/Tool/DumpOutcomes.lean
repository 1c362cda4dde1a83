import DSYMCreator.Tool.FileView
import DSYMCreator.Tool.StringCopies

/-!
# How a dump ends

A dump leaves the string buffer when a name cannot be copied. Otherwise all buffers
are prepared, and the dump fails the check of the UUID's length, fails the check in
front of the DWARF sections, or returns its image. No other assertion can fail.
-/
namespace DSYMCreator.Macho

open StringTable

variable {T : AddrType}

/-- What the preparation of the buffers goes through: the second pass over the names ends
in `st`, at the length of the first one, and both tables find all names in its map. -/
structure Prepared (stack : StackContents) (symbols : List (Symbol T)) (st : LoopState)
    (b : Buffers) : Prop where
  copies : copyNames (symbols.map Symbol.name) = .ok st
  offset : st.currentOffset = neededLength (symbols.map Symbol.name)
  found : ∀ s ∈ symbols, st.result.nameToOffset.lookup s.name ≠ none
  symbolTable : SymbolTable.dump stack symbols st.result.nameToOffset = .ok b.symbols
  debugInfo : DwarfDebugInfoSection.dump symbols st.result.nameToOffset = .ok b.debugInfo
  strings : b.strings = st.result.buffer
  buffers : prepareBuffers stack symbols = .ok b

section

variable {symbols : List (Symbol T)}

theorem exists_prepared (stack : StackContents) (h : CopiesFit (symbols.map Symbol.name)) :
    ∃ st b, Prepared stack symbols st b := by
  obtain ⟨st, hrun, hoffset, hdump⟩ := exists_dump_of_copiesFit h
  have hfound : ∀ s ∈ symbols, st.result.nameToOffset.lookup s.name ≠ none := by
    intro s hs
    exact lookup_ne_none hdump (List.mem_map_of_mem hs)
  have hsymbols := (SymbolTable.dump_eq_ok_iff stack _ symbols _).mpr ⟨hfound, rfl⟩
  have hinfo := (DwarfDebugInfoSection.dump_eq_ok_iff _ symbols _).mpr ⟨hfound, rfl⟩
  refine ⟨st, ⟨_, _, DwarfDummyDebugLineSection.dump stack, DwarfDebugAbbrevSection.dump, _⟩,
    hrun, hoffset, hfound, hsymbols, hinfo, rfl, ?_⟩
  simp only [prepareBuffers, hdump, ok_bind, hsymbols, hinfo]
  rfl

variable (stack : StackContents) {uuid : StdString} (off : Addr T)

theorem dump_of_not_copiesFit (h : ¬ CopiesFit (symbols.map Symbol.name)) :
    dump stack uuid symbols off = .error .outOfBounds := by
  simp only [dump, prepareBuffers, StringTable.dump_of_not_copiesFit h, error_bind]

theorem dump_of_length_ne (h : CopiesFit (symbols.map Symbol.name))
    (huuid : (cleanUuid uuid).length ≠ 32) :
    dump stack uuid symbols off = .error (.assertion .uuidLength) := by
  obtain ⟨st, b, hb⟩ := exists_prepared stack h
  simp only [dump, hb.buffers, ok_bind, cAssert_bind_eq_error]
  exact .inl ⟨huuid, trivial⟩

/-- Behind its first check the write block has one more way to fail. -/
theorem writeFile_or {commands : ByteBuffer} (b : Buffers) (h : commands.length ≤ 0x1000) :
    (∃ buf, writeFile commands b = .ok buf) ∨
      writeFile commands b = .error (.assertion .tablesFit) := by
  have hheader : cAssert (commands.length ≤ kSymbolTableOffset.toNat) .headerFits = .ok () :=
    cAssert_eq_ok.mpr h
  unfold writeFile
  simp only [hheader, ok_bind, cAssert_bind_eq_ok, cAssert_bind_eq_error]
  by_cases htables : (appendToBuffer (appendToBuffer (resize commands kSymbolTableOffset.toNat)
      b.symbols) b.strings).length ≤ b.dwarfStart.toNat
  · exact .inl ⟨_, htables, rfl⟩
  · exact .inr (.inl ⟨htables, trivial⟩)

theorem dump_of_not_fits (h : CopiesFit (symbols.map Symbol.name))
    (huuid : (cleanUuid uuid).length = 32) (htables : ¬ tablesEnd symbols + 0x1000 ≤ 2 ^ 32) :
    dump stack uuid symbols off = .error (.assertion .tablesFit) := by
  obtain ⟨st, b, hb⟩ := exists_prepared stack h
  have hcheck : cAssert ((cleanUuid uuid).length = 32) .uuidLength = .ok () :=
    cAssert_eq_ok.mpr huuid
  have hdump : dump stack uuid symbols off = writeFile (commandArea stack b symbols.length
      (alignTo off kAlignBase) (cleanUuid uuid)) b := by
    simp only [dump, hb.buffers, ok_bind, hcheck]
  have hlength := length_commandArea stack b symbols.length (alignTo off kAlignBase) (cleanUuid uuid)
  rcases writeFile_or b (hlength.trans_le (commandLength_le T)) with ⟨buf, hok⟩ | herror
  · rw [← hdump] at hok
    exact absurd ((dump_eq_ok_iff ..).mp hok).1.tables htables
  · rw [hdump, herror]

end

end DSYMCreator.Macho
