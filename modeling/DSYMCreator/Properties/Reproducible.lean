import DSYMCreator.Tool.FileView

/-!
# What reaches the file from the stack

The two reserved fields of the 64-bit structs are the only ones that nothing
assigns. A 32-bit dump has neither and does not depend on the stack; a 64-bit
dump that returns has the header's field in its first 32 bytes.
-/
namespace DSYMCreator

open Binary Text

variable {T : AddrType}

/-! ## Tables -/

theorem SymbolTable.dumpFrom_stack (before after : StackContents) (m : NameToOffset) (i : ℕ)
    (symbols : List (Symbol T)) (result : ByteBuffer) :
    dumpFrom before m i symbols result = dumpFrom after m i symbols result := by
  induction symbols generalizing i result with
  | nil => rfl
  | cons s symbols ih =>
    have hentry (strx : BitVec 32) :
        objectBytes (before (.nlist i)) (entry (before (.nlist i)) s strx).members =
          objectBytes (after (.nlist i)) (entry (after (.nlist i)) s strx).members :=
      (objectBytes_eq _ (Nlist.packed _)).trans (objectBytes_eq _ (Nlist.packed _)).symm
    simp only [dumpFrom, hentry, ih]

namespace Macho

/-- The tables and sections are made of assigned fields and cleared memory. -/
theorem prepareBuffers_stack (before after : StackContents) (symbols : List (Symbol T)) :
    prepareBuffers before symbols = prepareBuffers after symbols := by
  have hsymbols (m : NameToOffset) :
      SymbolTable.dump before symbols m = SymbolTable.dump after symbols m :=
    SymbolTable.dumpFrom_stack before after m 0 symbols []
  simp only [prepareBuffers, hsymbols]
  rfl

/-! ## Commands -/

theorem reserved_eq (v w : BitVec (8 * AddrType.only64 .uint32 4)) : v = w := by
  have hzero (x : BitVec (8 * AddrType.only64 .uint32 4)) : x.toNat = 0 := by
    have hlt : x.toNat < 2 ^ 0 := x.isLt
    omega
  exact BitVec.eq_of_toNat_eq ((hzero v).trans (hzero w).symm)

theorem machHeader_stack (before after : StackContents) :
    machHeader .uint32 before = machHeader .uint32 after := by
  simp only [machHeader, MachHeader.new, MachHeader.ofMemory]
  congr 1

theorem section_stack (before after : RawMemory) (h : RawMemory → Section .uint32)
    (hassigned : ∀ raw, { h raw with reserved3 := 0 } = { h (fun _ => 0) with reserved3 := 0 }) :
    h before = h after := by
  have heta (raw : RawMemory) : h raw = { h raw with reserved3 := 0 } := by
    cases h raw
    congr 1
    exact reserved_eq _ _
  rw [heta before, heta after, hassigned before, hassigned after]

theorem commandArea_stack (before after : StackContents) (b : Buffers) (nsyms : ℕ)
    (vmbase : Addr .uint32) (clean : StdString) :
    commandArea before b nsyms vmbase clean = commandArea after b nsyms vmbase clean := by
  have htext : textSectionHeader .uint32 before = textSectionHeader .uint32 after :=
    section_stack (before .textSectionHeader) (after .textSectionHeader)
      (TextSectionHeader.new .uint32) fun _ => rfl
  have hdwarf (o : LocalObject) (name : StdString) (off : BitVec 32) (length : Addr .uint32) :
      DwarfCommonSectionHeader.new (before o) name vmbase off length =
        DwarfCommonSectionHeader.new (after o) name vmbase off length :=
    section_stack (before o) (after o)
      (fun raw => DwarfCommonSectionHeader.new raw name vmbase off length) fun _ => rfl
  rw [commandArea_eq, commandArea_eq]
  simp only [machHeader_stack before after, htext, Buffers.dwarfHeaders, Buffers.debugLineHeader,
    Buffers.debugInfoHeader, Buffers.debugAbbrevHeader, Buffers.debugStrHeader, hdwarf]
  rfl

/-! ## The dump -/

/-- Which assertion fails in the write block is a matter of lengths. -/
theorem writeFile_error {commands commands' : ByteBuffer} {b : Buffers} {e : Failure}
    (hlength : commands.length = commands'.length) (h : writeFile commands b = .error e) :
    writeFile commands' b = .error e := by
  have hresize (n : ℕ) : (resize commands n).length = (resize commands' n).length := by
    simp [resize, hlength]
  simp only [writeFile, cAssert_bind_eq_error, appendToBuffer, List.length_append, hlength,
    hresize] at h ⊢
  rcases h with hfirst | ⟨hfits, hsecond | ⟨-, hok⟩⟩
  · exact .inl hfirst
  · exact .inr ⟨hfits, .inl hsecond⟩
  · cases hok

theorem dump_error {before : StackContents} {uuid : StdString} {symbols : List (Symbol T)}
    {off : Addr T} {e : Failure} (after : StackContents)
    (h : dump before uuid symbols off = .error e) : dump after uuid symbols off = .error e := by
  simp only [dump, prepareBuffers_stack before after] at h ⊢
  cases hb : prepareBuffers after symbols with
  | error e' =>
    simp only [hb, error_bind] at h ⊢
    exact h
  | ok b =>
    simp only [hb, ok_bind, cAssert_bind_eq_error] at h ⊢
    rcases h with huuid | ⟨huuid, hwrite⟩
    · exact .inl huuid
    · refine .inr ⟨huuid, writeFile_error ?_ hwrite⟩
      rw [length_commandArea, length_commandArea]

theorem image_stack (before after : StackContents) (uuid : StdString)
    (symbols : List (Symbol .uint32)) (off : Addr .uint32) :
    image before uuid symbols off = image after uuid symbols off := by
  rw [image, image, commandArea_stack before after]

theorem dump_stack_of_uint32 (before after : StackContents) (uuid : StdString)
    (symbols : List (Symbol .uint32)) (off : Addr .uint32) :
    dump before uuid symbols off = dump after uuid symbols off := by
  cases h : dump before uuid symbols off with
  | error e => exact (dump_error after h).symm
  | ok buf =>
    obtain ⟨hfits, hbuf⟩ := (dump_eq_ok_iff ..).mp h
    have hafter := hbuf.trans (image_stack before after uuid symbols off)
    exact ((dump_eq_ok_iff after ..).mpr ⟨hfits, hafter⟩).symm

/-- A stack that holds a one wherever the header is built. -/
def dirtyStack : StackContents
  | .machHeader => fun _ => 1
  | _ => fun _ => 0

theorem image_reserved (stack : StackContents) (uuid : StdString) (symbols : List (Symbol .uint64))
    (off : Addr .uint64) : (image stack uuid symbols off)[28]? =
      (flatBytes (machHeader .uint64 stack).members)[28]? := by
  have hcommands := image_commands stack uuid symbols off
  rw [commandArea_eq] at hcommands
  have hinside : 28 < (flatBytes (machHeader .uint64 stack).members).length := by
    rw [MachHeader.length_flatBytes]
    decide
  have hget := hcommands.left.getElem? hinside
  rwa [Nat.zero_add] at hget

theorem image_depends_on_stack (uuid : StdString) (symbols : List (Symbol .uint64))
    (off : Addr .uint64) :
    image clearStack uuid symbols off ≠ image dirtyStack uuid symbols off := by
  intro h
  have hbyte := congrArg (fun file : ByteBuffer => file[28]?) h
  simp only [image_reserved] at hbyte
  have hclear : (flatBytes (machHeader .uint64 clearStack).members)[28]? = some 0 := by decide
  have hdirty : (flatBytes (machHeader .uint64 dirtyStack).members)[28]? = some 1 := by decide
  rw [hclear, hdirty] at hbyte
  exact absurd hbyte (by decide)

theorem dump_depends_on_stack {uuid : StdString} {symbols : List (Symbol .uint64)}
    (h : Fits uuid symbols) (off : Addr .uint64) :
    dump clearStack uuid symbols off ≠ dump dirtyStack uuid symbols off := by
  rw [h.dump_eq clearStack, h.dump_eq dirtyStack]
  intro heq
  exact image_depends_on_stack uuid symbols off (Except.ok.inj heq)

/-- The result is the same on every stack exactly for 32-bit files and for inputs on which
no file is written. -/
theorem dump_reproducible_iff (uuid : StdString) (symbols : List (Symbol T)) (off : Addr T) :
    (∀ before after, dump before uuid symbols off = dump after uuid symbols off) ↔
      T = .uint32 ∨ ¬ Fits uuid symbols := by
  constructor
  · intro hsame
    by_contra hneither
    obtain ⟨hwidth, hfits⟩ := not_or.mp hneither
    cases T with
    | uint32 => exact hwidth rfl
    | uint64 => exact dump_depends_on_stack (not_not.mp hfits) off (hsame _ _)
  · rintro (rfl | hfits) before after
    · exact dump_stack_of_uint32 before after uuid symbols off
    · cases h : dump before uuid symbols off with
      | error e => exact (dump_error after h).symm
      | ok buf => exact absurd ((dump_eq_ok_iff ..).mp h).1 hfits

theorem empty_list_depends_on_stack :
    ¬ ∀ before after, dump before usageUuid ([] : List (Symbol .uint64)) 0 =
      dump after usageUuid ([] : List (Symbol .uint64)) 0 := by
  intro hsame
  have hfits : Fits usageUuid ([] : List (Symbol .uint64)) := ⟨by decide, by decide⟩
  exact dump_depends_on_stack hfits 0 (hsame _ _)

end Macho
end DSYMCreator
