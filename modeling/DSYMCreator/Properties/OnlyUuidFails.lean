import DSYMCreator.Tool.DumpOutcomes

/-!
# Only the UUID can make a dump fail

Below `2 ^ 32` bytes of output every copy, every lookup and every check of a length
succeeds, whatever the names are. What is left is the check of the UUID's length.
-/
namespace DSYMCreator.Macho

open StringTable Text

variable {T : AddrType}

/-- The dump returns its file, or fails the check of the UUID's length. -/
structure OnlyUuidFails (stack : StackContents) (uuid : StdString) (symbols : List (Symbol T))
    (off : Addr T) : Prop where
  returns : (cleanUuid uuid).length = 32 →
    ∃ buf, dump stack uuid symbols off = .ok buf ∧ buf.length = outputSize symbols
  fails : (cleanUuid uuid).length ≠ 32 →
    dump stack uuid symbols off = .error (.assertion .uuidLength)

/-- Neither of the two `resize` calls cuts the buffer. -/
structure ResizesGrow (commands : ByteBuffer) (b : Buffers) : Prop where
  header : commands.length ≤ kSymbolTableOffset.toNat
  tables : (appendToBuffer (appendToBuffer (resize commands kSymbolTableOffset.toNat) b.symbols)
    b.strings).length ≤ b.dwarfStart.toNat

theorem names_lt_of_outputSize {symbols : List (Symbol T)} (h : outputSize symbols < 2 ^ 32) :
    (concatNames (symbols.map Symbol.name)).length < 2 ^ 32 := by
  have hstrings : stringsLength symbols ≤ outputSize symbols := Nat.le_add_left ..
  exact lt_of_le_of_lt hstrings h

theorem tables_resizesGrow {commands : ByteBuffer} {symbols : List (Symbol T)}
    (hcommands : commands.length ≤ 0x1000) (htables : tablesEnd symbols + 0x1000 ≤ 2 ^ 32) :
    ResizesGrow commands (tables symbols) := by
  refine ⟨hcommands, ?_⟩
  have hlength : (appendToBuffer (appendToBuffer (resize commands kSymbolTableOffset.toNat)
      (tables symbols).symbols) (tables symbols).strings).length = tablesEnd symbols := by
    rw [toNat_kSymbolTableOffset, resize_of_le hcommands, ← tablesEnd_eq]
    simp only [appendToBuffer, List.length_append, length_zeros]
    omega
  rw [hlength, tables_dwarfStart htables]
  exact tablesEnd_le_lineOff symbols

/-- A dump of less than `2 ^ 32` bytes goes through, but for the UUID. -/
theorem only_uuid_fails (stack : StackContents) (uuid : StdString) (symbols : List (Symbol T))
    (off : Addr T) (hsize : outputSize symbols < 2 ^ 32) :
    OnlyUuidFails stack uuid symbols off ∧ ∃ st b, Prepared stack symbols st b ∧
      ResizesGrow (commandArea stack b symbols.length (alignTo off kAlignBase) (cleanUuid uuid)) b := by
  have hnames := names_lt_of_outputSize hsize
  have hcopies := copiesFit_of_lt hnames
  have htables := tablesEnd_fits hsize
  constructor
  · constructor
    · intro huuid
      have hfits : Fits uuid symbols := ⟨huuid, htables⟩
      exact ⟨_, hfits.dump_eq stack off, length_image hfits⟩
    · exact dump_of_length_ne stack off hcopies
  · obtain ⟨st, b, hb⟩ := exists_prepared stack hcopies
    have hbuffers := hb.buffers
    rw [prepareBuffers_ok stack symbols hnames, Except.ok.injEq] at hbuffers
    refine ⟨st, b, hb, ?_⟩
    rw [← hbuffers]
    apply tables_resizesGrow _ htables
    rw [length_commandArea]
    exact commandLength_le T

/-- Two symbols share a name and the one between them has none. -/
def sharedNames : List (Symbol .uint32) :=
  [⟨ascii "f", 0x4000, 0x4010⟩, ⟨[], 0x4010, 0x4020⟩, ⟨ascii "f", 0x4020, 0x4030⟩]

theorem only_uuid_fails_shared : OnlyUuidFails clearStack (ascii "1449") sharedNames 0 ∧
    ∃ st b, Prepared clearStack sharedNames st b ∧ ResizesGrow (commandArea clearStack b 3
      (alignTo (0 : Addr .uint32) kAlignBase) (cleanUuid (ascii "1449"))) b :=
  only_uuid_fails clearStack (ascii "1449") sharedNames 0 (by decide)

end DSYMCreator.Macho
