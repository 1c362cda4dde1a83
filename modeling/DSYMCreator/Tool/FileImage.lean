import DSYMCreator.Tool.TableImages
import DSYMCreator.Tool.Macho
import DSYMCreator.Binary.RoundUp

/-!
# The file that a dump returns

`Macho<T>::dump` returns exactly when the UUID has 32 characters without its
hyphens and the part in front of the DWARF sections fits below the last page of
the 32-bit offsets; it then returns `image`, a concatenation of nine pieces.
-/
namespace DSYMCreator

open Binary Text

namespace StringTable

/-- The offset that the map holds for a name of the list. -/
def nameOffset (names : List StdString) (name : StdString) : BitVec 32 :=
  ((lastOffset name 0 names).map toU32).getD 0

/-- The offset of a name of the list is a place where the name stands with its terminator. -/
theorem nameOffset_occursAt {names : List StdString} {name : StdString}
    (hname : name ∈ names) (hlt : (concatNames names).length < 2 ^ 32) :
    OccursAt (concatNames names) (nameOffset names name).toNat (name ++ [0]) := by
  obtain ⟨o, ho⟩ := Option.ne_none_iff_exists'.mp (lastOffset_ne_none 0 hname)
  have hat := lastOffset_occursAt ho
  have hbound := hat.bound
  have hoffset : (nameOffset names name).toNat = o := by
    unfold nameOffset
    rw [ho, Option.map_some, Option.getD_some, toNat_toU32_of_lt (by omega)]
  exact hat.cast hoffset.symm

end StringTable

namespace Macho

variable {T : AddrType}

open StringTable

/-- The bytes in front of the DWARF sections: the first page, the symbol table and
the string table. -/
def tablesEnd (symbols : List (Symbol T)) : ℕ :=
  0x1000 + symbols.length * (8 + T.size) + (concatNames (symbols.map Symbol.name)).length

/-- The buffers of a run that returns. -/
def tables (symbols : List (Symbol T)) : Buffers where
  strings := concatNames (symbols.map Symbol.name)
  symbols := symbols.flatMap (SymbolTable.recordBytes (nameOffset (symbols.map Symbol.name)))
  debugLine := DwarfDummyDebugLineSection.dump fun _ _ => 0
  debugAbbrev := DwarfDebugAbbrevSection.dump
  debugInfo := DwarfDebugInfoSection.infoBytes (nameOffset (symbols.map Symbol.name)) symbols

theorem length_tables_symbols (symbols : List (Symbol T)) :
    (tables symbols).symbols.length = symbols.length * (8 + T.size) :=
  SymbolTable.length_records ..

theorem length_tables_debugLine (symbols : List (Symbol T)) :
    (tables symbols).debugLine.length = 20 := rfl

theorem length_tables_debugAbbrev (symbols : List (Symbol T)) :
    (tables symbols).debugAbbrev.length = 18 := rfl

theorem length_tables_debugInfo (symbols : List (Symbol T)) :
    (tables symbols).debugInfo.length = 15 + symbols.length * (5 + 2 * T.size) :=
  DwarfDebugInfoSection.length_infoBytes ..

theorem prepareBuffers_ok (stack : StackContents) (symbols : List (Symbol T))
    (hlt : (concatNames (symbols.map Symbol.name)).length < 2 ^ 32) :
    prepareBuffers stack symbols = .ok (tables symbols) := by
  obtain ⟨m, hdump⟩ := dump_ok hlt
  have hlookup (name : StdString) := lookup_of_dump hdump name
  have hoffset : offsetIn m = nameOffset (symbols.map Symbol.name) := by
    funext name
    unfold offsetIn
    rw [hlookup, nameOffset]
  have hfound : ∀ s ∈ symbols, m.lookup s.name ≠ none := by
    intro s hs
    exact lookup_ne_none hdump (List.mem_map_of_mem hs)
  have hsymbols := (SymbolTable.dump_eq_ok_iff stack m symbols _).mpr ⟨hfound, rfl⟩
  have hinfo := (DwarfDebugInfoSection.dump_eq_ok_iff m symbols _).mpr ⟨hfound, rfl⟩
  simp only [prepareBuffers, hdump, ok_bind, hsymbols, hinfo, hoffset]
  rfl

/-- In every run the record table and the info section hold the symbols in their order, with
one and the same offset for each name. -/
theorem prepareBuffers_bytes {stack : StackContents} {symbols : List (Symbol T)} {b : Buffers}
    (h : prepareBuffers stack symbols = .ok b) :
    ∃ strx, b.symbols = symbols.flatMap (SymbolTable.recordBytes strx) ∧
      b.debugInfo = DwarfDebugInfoSection.infoBytes strx symbols := by
  obtain ⟨r, -, h⟩ := bind_eq_ok.mp h
  obtain ⟨table, htable, h⟩ := bind_eq_ok.mp h
  obtain ⟨info, hinfo, h⟩ := bind_eq_ok.mp h
  cases h
  exact ⟨offsetIn r.nameToOffset, ((SymbolTable.dump_eq_ok_iff ..).mp htable).2,
    ((DwarfDebugInfoSection.dump_eq_ok_iff ..).mp hinfo).2⟩

/-- What every run knows of its buffers: the record table has its full size, and the
string buffer is the concatenation or has the top length. -/
theorem prepareBuffers_eq_ok {stack : StackContents} {symbols : List (Symbol T)} {b : Buffers}
    (h : prepareBuffers stack symbols = .ok b) :
    b.symbols.length = symbols.length * (8 + T.size) ∧
      ((concatNames (symbols.map Symbol.name)).length < 2 ^ 32 ∨
        b.strings.length = 2 ^ 32 - 1) := by
  obtain ⟨r, hstrings, h⟩ := bind_eq_ok.mp h
  obtain ⟨table, htable, h⟩ := bind_eq_ok.mp h
  obtain ⟨info, hinfo, h⟩ := bind_eq_ok.mp h
  cases h
  obtain ⟨-, rfl⟩ := (SymbolTable.dump_eq_ok_iff ..).mp htable
  exact ⟨SymbolTable.length_records .., length_lt_of_dump hstrings⟩

/-! ## The offset where the DWARF sections start -/

theorem toNat_kSymbolTableOffset : kSymbolTableOffset.toNat = 0x1000 := rfl

theorem dwarfStart_toNat (b : Buffers) :
    b.dwarfStart.toNat =
      roundUp 0x1000 ((0x1000 + b.symbols.length + b.strings.length) % 2 ^ 32) % 2 ^ 32 := by
  rw [Buffers.dwarfStart, alignTo_toNat le_rfl _ kAlignBase_pow, toU32_add, toNat_toU32,
    toNat_kSymbolTableOffset]
  rfl

/-- The check in front of the DWARF sections compares a true length with a wrapped offset;
it passes exactly when nothing wrapped, and then the offset is the true page boundary. -/
theorem tablesFit_iff (b : Buffers) :
    0x1000 + b.symbols.length + b.strings.length ≤ b.dwarfStart.toNat ↔
      0x1000 + b.symbols.length + b.strings.length + 0x1000 ≤ 2 ^ 32 := by
  rw [dwarfStart_toNat]
  set n := 0x1000 + b.symbols.length + b.strings.length with hn
  have hdvd : (0x1000 : ℕ) ∣ 2 ^ 32 := by norm_num
  constructor
  · intro h
    have hlt : n < 2 ^ 32 := h.trans_lt (Nat.mod_lt _ (by norm_num))
    rw [Nat.mod_eq_of_lt hlt] at h
    by_contra hover
    have hround : roundUp 0x1000 n = 2 ^ 32 :=
      (roundUp_eq_iff (by norm_num) hdvd hlt.le).mpr (not_le.mp hover)
    rw [hround, Nat.mod_self] at h
    omega
  · intro h
    have hlt : n < 2 ^ 32 := by omega
    rw [Nat.mod_eq_of_lt hlt, Nat.mod_eq_of_lt ((roundUp_lt_iff (by norm_num) hdvd).2 h)]
    exact le_roundUp (by norm_num) n

theorem dwarfStart_of_fits {b : Buffers}
    (h : 0x1000 + b.symbols.length + b.strings.length + 0x1000 ≤ 2 ^ 32) :
    b.dwarfStart.toNat = roundUp 0x1000 (0x1000 + b.symbols.length + b.strings.length) := by
  have hlt : 0x1000 + b.symbols.length + b.strings.length < 2 ^ 32 := by omega
  rw [dwarfStart_toNat, Nat.mod_eq_of_lt hlt,
    Nat.mod_eq_of_lt ((roundUp_lt_iff (by norm_num) (by norm_num)).2 h)]

/-! ## The image -/

def zeros (n : ℕ) : ByteBuffer := List.replicate n 0

@[simp] theorem length_zeros (n : ℕ) : (zeros n).length = n := List.length_replicate ..

/-- What the write block lays down behind the commands. -/
def layOut (commands : ByteBuffer) (b : Buffers) : ByteBuffer :=
  commands ++ zeros (0x1000 - commands.length) ++ b.symbols ++ b.strings ++
    zeros (b.dwarfStart.toNat - (0x1000 + b.symbols.length + b.strings.length)) ++
    b.debugLine ++ b.debugInfo ++ b.debugAbbrev ++ b.strings

theorem resize_of_le {buffer : ByteBuffer} {n : ℕ} (h : buffer.length ≤ n) :
    resize buffer n = buffer ++ zeros (n - buffer.length) := by
  unfold resize
  rw [List.take_of_length_le h, zeros]

theorem writeFile_eq_ok_iff (commands : ByteBuffer) (b : Buffers) (buf : ByteBuffer) :
    writeFile commands b = .ok buf ↔
      commands.length ≤ 0x1000 ∧
        0x1000 + b.symbols.length + b.strings.length ≤ b.dwarfStart.toNat ∧
        buf = layOut commands b := by
  by_cases hfits : commands.length ≤ 0x1000
  · have hfirst : resize commands 0x1000 =
        commands ++ zeros (0x1000 - commands.length) := resize_of_le hfits
    have hlength : (commands ++ zeros (0x1000 - commands.length) ++ b.symbols ++ b.strings).length =
        0x1000 + b.symbols.length + b.strings.length := by
      simp only [List.length_append, length_zeros]
      omega
    simp only [writeFile, cAssert_bind_eq_ok]
    simp only [appendToBuffer, toNat_kSymbolTableOffset, hfirst, hlength]
    constructor
    · rintro ⟨-, htables, h⟩
      rw [resize_of_le (by rwa [hlength]), hlength] at h
      exact ⟨hfits, htables, (Except.ok.inj h).symm⟩
    · rintro ⟨-, htables, rfl⟩
      refine ⟨hfits, htables, ?_⟩
      rw [resize_of_le (by rwa [hlength]), hlength]
      rfl
  · simp only [writeFile, cAssert_bind_eq_ok]
    exact ⟨fun h => absurd h.1 hfits, fun h => absurd h.1 hfits⟩

/-- The section headers of the DWARF segment, in the order they are written. -/
def Buffers.dwarfHeaders (b : Buffers) (stack : StackContents) (vmbase : Addr T) :
    List (Section T) :=
  [b.debugLineHeader stack vmbase, b.debugStrHeader stack vmbase,
    b.debugAbbrevHeader stack vmbase, b.debugInfoHeader stack vmbase]

/-- A segment command and the section headers behind it. -/
def segmentBytes (c : SegmentCommand T) (sections : List (Section T)) : ByteBuffer :=
  flatBytes c.members ++ sections.flatMap fun h => flatBytes h.members

/-- No struct has padding: the command area is the fields of ten objects. -/
theorem commandArea_eq (stack : StackContents) (b : Buffers) (nsyms : ℕ) (vmbase : Addr T)
    (clean : StdString) :
    commandArea stack b nsyms vmbase clean =
      flatBytes (machHeader T stack).members ++ (flatBytes (uuidCommand stack clean).members ++
        (flatBytes (b.symtabCommand stack nsyms).members ++
          (segmentBytes (textSegmentCommand T stack) [textSectionHeader T stack] ++
            segmentBytes (b.dwarfSegmentCommand stack vmbase) (b.dwarfHeaders stack vmbase)))) := by
  simp only [commandArea, appendToBuffer, objectBytes_eq _ (MachHeader.packed _),
    objectBytes_eq _ (UUIDCommand.packed _), objectBytes_eq _ (SymtabCommand.packed _),
    objectBytes_eq _ (SegmentCommand.packed _), objectBytes_eq _ (Section.packed _),
    segmentBytes, Buffers.dwarfHeaders]
  simp

theorem length_segmentBytes (c : SegmentCommand T) (sections : List (Section T)) :
    (segmentBytes c sections).length =
      40 + 4 * T.size + sections.length * (60 + 2 * T.size + T.only64 4) := by
  simp [segmentBytes, List.length_flatMap]

/-- The size of the command area: 528 bytes in the 32-bit file, 624 in the 64-bit one. -/
def commandLength (T : AddrType) : ℕ := 456 + 18 * T.size + 6 * T.only64 4

theorem length_commandArea (stack : StackContents) (b : Buffers) (nsyms : ℕ) (vmbase : Addr T)
    (clean : StdString) :
    (commandArea stack b nsyms vmbase clean).length = commandLength T := by
  rw [commandArea_eq]
  simp only [List.length_append, MachHeader.length_flatBytes, UUIDCommand.length_flatBytes,
    SymtabCommand.length_flatBytes, length_segmentBytes, Buffers.dwarfHeaders, List.length_cons,
    List.length_nil, commandLength]
  omega

theorem commandLength_le (T : AddrType) : commandLength T ≤ 0x1000 := by cases T <;> decide

/-- What an input has to satisfy for the dump to return. -/
structure Fits (uuid : StdString) (symbols : List (Symbol T)) : Prop where
  uuid : (cleanUuid uuid).length = 32
  tables : tablesEnd symbols + 0x1000 ≤ 2 ^ 32

theorem Fits.names_lt {uuid : StdString} {symbols : List (Symbol T)} (h : Fits uuid symbols) :
    (concatNames (symbols.map Symbol.name)).length < 2 ^ 32 := by
  have hfit := h.tables
  rw [tablesEnd] at hfit
  omega

/-- A stack of zero bytes, and the UUID of the usage text of `main.mm`. -/
def clearStack : StackContents := fun _ _ => 0
def usageUuid : StdString := ascii "14494083-a184-31e2-946b-3f942a402952"

/-- Symbols with a repeated name and empty names. -/
def mixedSymbols (T : AddrType) : List (Symbol T) :=
  [⟨ascii "main", 0x8001, 0x9001⟩, ⟨[], 0x9001, 0xa000⟩, ⟨ascii "-[A b]", 0xa000, 0xa040⟩,
    ⟨ascii "main", 0xa041, 0xa041⟩, ⟨[], 0, 0⟩]

/-- The file that a dump returns. -/
def image (stack : StackContents) (uuid : StdString) (symbols : List (Symbol T))
    (sectionVmAddrOffset : Addr T) : ByteBuffer :=
  layOut (commandArea stack (tables symbols) symbols.length
    (alignTo sectionVmAddrOffset kAlignBase) (cleanUuid uuid)) (tables symbols)

theorem tablesEnd_eq (symbols : List (Symbol T)) :
    0x1000 + (tables symbols).symbols.length + (tables symbols).strings.length =
      tablesEnd symbols := by
  rw [length_tables_symbols]
  rfl

/-- A dump returns exactly on the inputs that fit, and returns the image. -/
theorem dump_eq_ok_iff (stack : StackContents) (uuid : StdString) (symbols : List (Symbol T))
    (sectionVmAddrOffset : Addr T) (buf : ByteBuffer) :
    dump stack uuid symbols sectionVmAddrOffset = .ok buf ↔
      Fits uuid symbols ∧ buf = image stack uuid symbols sectionVmAddrOffset := by
  constructor
  · intro h
    simp only [dump, bind_eq_ok (x := prepareBuffers stack symbols), cAssert_bind_eq_ok,
      writeFile_eq_ok_iff] at h
    obtain ⟨b, hb, huuid, -, hchecked, hbuf⟩ := h
    have hfit := (tablesFit_iff b).mp hchecked
    obtain ⟨hsymbols, hstrings⟩ := prepareBuffers_eq_ok hb
    -- a string buffer of the top length leaves no room for the first page
    have hlt : (concatNames (symbols.map Symbol.name)).length < 2 ^ 32 := by
      rcases hstrings with hlt | htop
      · exact hlt
      · omega
    rw [prepareBuffers_ok stack symbols hlt, Except.ok.injEq] at hb
    subst hb
    rw [tablesEnd_eq] at hfit
    exact ⟨⟨huuid, hfit⟩, hbuf⟩
  · rintro ⟨h, hbuf⟩
    simp only [dump, prepareBuffers_ok stack symbols h.names_lt, ok_bind, cAssert_bind_eq_ok,
      writeFile_eq_ok_iff]
    refine ⟨h.uuid, ?_, ?_, hbuf⟩
    · rw [length_commandArea]
      exact commandLength_le T
    · rw [tablesFit_iff, tablesEnd_eq]
      exact h.tables

theorem Fits.dump_eq {uuid : StdString} {symbols : List (Symbol T)} (h : Fits uuid symbols)
    (stack : StackContents) (sectionVmAddrOffset : Addr T) :
    dump stack uuid symbols sectionVmAddrOffset =
      .ok (image stack uuid symbols sectionVmAddrOffset) :=
  (dump_eq_ok_iff ..).mpr ⟨h, rfl⟩

end Macho
end DSYMCreator
