import DSYMCreator.Tool.HeaderViews

/-!
# The command area and `sizeofcmds`

Every `cmdsize` is the size of its command, so the walk from command to command
is right. The header's `sizeofcmds` leaves out the `__DWARF` segment command and
its four section headers, in every file that is ever written.
-/
namespace DSYMCreator.Macho

open Text

variable {T : AddrType}

/-- The written file obeys the rule of `mach-o/loader.h` for its command area. -/
def CommandAreaConsistent (file : ByteBuffer) : Prop :=
  ∃ f, MachO.readFile file = some f ∧ f.CommandsConsistent

theorem fileView_extents {stack : StackContents} {uuid : StdString} {symbols : List (Symbol T)}
    {off : Addr T} :
    ∀ c ∈ (fileView stack uuid symbols off).commands, c.cmdsize = c.extent := by
  simp [fileView]

theorem sizeofcmds_toNat (T : AddrType) (stack : StackContents) :
    (machHeader T stack).sizeofcmds.toNat = 48 + segmentExtent T 1 := by
  simp only [machHeader, sizeofUUIDCommand_eq, sizeofSymtabCommand_eq, sizeofSegmentCommand_eq,
    sizeofSection_eq, segmentExtent]
  cases T <;> rfl

/-- What is missing from `sizeofcmds` is the fourth command. -/
theorem fileView_gap (stack : StackContents) (uuid : StdString) (symbols : List (Symbol T))
    (off : Addr T) :
    (fileView stack uuid symbols off).header.sizeofcmds + segmentExtent T 4 =
      (fileView stack uuid symbols off).commandsSize := by
  have hsizeof : (fileView stack uuid symbols off).header.sizeofcmds = 48 + segmentExtent T 1 :=
    sizeofcmds_toNat T stack
  rw [hsizeof, MachO.File.commandsSize, fileView]
  simp only [List.map_cons, List.map_nil, List.sum_cons, List.sum_nil]
  omega

theorem segmentExtent_pos (T : AddrType) (n : ℕ) : 0 < segmentExtent T n := by
  unfold segmentExtent
  omega

theorem image_inconsistent (stack : StackContents) (uuid : StdString) (symbols : List (Symbol T))
    (off : Addr T) : ¬ CommandAreaConsistent (image stack uuid symbols off) := by
  rintro ⟨f, hf, -, hsize⟩
  rw [readFile_image, Option.some_inj] at hf
  subst hf
  have hgap := fileView_gap stack uuid symbols off
  have hpos := segmentExtent_pos T 4
  omega

/-- No file meets the rule: the commands are as long as they say, but the header's sum
falls short by the segment command with four section headers. -/
theorem sizeofcmds_omits_dwarf_segment {stack : StackContents} {uuid : StdString}
    {symbols : List (Symbol T)} {off : Addr T} {buf : ByteBuffer}
    (hdump : dump stack uuid symbols off = .ok buf) :
    ¬ CommandAreaConsistent buf ∧
      ∃ f, MachO.readFile buf = some f ∧ (∀ c ∈ f.commands, c.cmdsize = c.extent) ∧
        f.header.sizeofcmds + segmentExtent T 4 = f.commandsSize := by
  obtain ⟨-, hbuf⟩ := (dump_eq_ok_iff ..).mp hdump
  rw [hbuf]
  exact ⟨image_inconsistent stack uuid symbols off, _, readFile_image, fileView_extents,
    fileView_gap stack uuid symbols off⟩

theorem sizeofcmds_omits_dwarf_segment_mixed :
    ¬ CommandAreaConsistent (image clearStack usageUuid (mixedSymbols .uint32) 0) :=
  (sizeofcmds_omits_dwarf_segment ((fits_mixedSymbols .uint32).dump_eq clearStack 0)).1

theorem empty_list_area_inconsistent :
    ¬ ∀ buf, dump clearStack usageUuid ([] : List (Symbol .uint32)) 0 = .ok buf →
      CommandAreaConsistent buf := by
  intro h
  exact image_inconsistent _ _ _ _
    (h _ (Fits.dump_eq ⟨by decide, by decide⟩ clearStack 0))

end DSYMCreator.Macho
