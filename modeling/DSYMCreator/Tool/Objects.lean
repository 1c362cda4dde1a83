import DSYMCreator.Tool.MachoTypeWrapper
import DSYMCreator.Formats.MachO

/-!
# What a Mach-O reader sees in the writer's structs

None of the structs has padding in either variant, so an object is its members'
bytes whatever memory it was built in. The reader takes those bytes back to the
fields' values.
-/
namespace DSYMCreator

open Binary Binary.Parser Text

/-- The bytes of an object without padding. -/
def flatBytes (ms : List Member) : ByteBuffer := ms.flatMap Member.bytes

theorem objectBytes_eq (raw : RawMemory) {ms : List Member} (h : Packed ms) :
    objectBytes raw ms = flatBytes ms := objectBytes_of_packed raw h

theorem structSize_eq {ms : List Member} (h : Packed ms) : structSize ms = (flatBytes ms).length := by
  unfold structSize
  rw [objectBytes_of_packed _ h, flatBytes]

theorem Nlist.packed {T : AddrType} (n : Nlist T) : Packed n.members := by
  simp only [Nlist.members, Packed, PackedFrom, structAlign, gap, Member.align_scalar,
    Member.length_scalar, List.map, List.foldr, List.sum]
  cases T <;> decide

theorem MachHeader.packed {T : AddrType} (h : MachHeader T) : Packed h.members := by
  simp only [MachHeader.members, Packed, PackedFrom, structAlign, gap, Member.align_scalar,
    Member.length_scalar, List.map, List.foldr, List.sum]
  cases T <;> decide

theorem UUIDCommand.packed (c : UUIDCommand) : Packed c.members := by
  simp only [UUIDCommand.members, Packed, PackedFrom, structAlign, gap, Member.align_scalar,
    Member.length_scalar, Member.align_array, Member.length_array, List.map, List.foldr, List.sum]
  decide

theorem SymtabCommand.packed (c : SymtabCommand) : Packed c.members := by
  simp only [SymtabCommand.members, Packed, PackedFrom, structAlign, gap, Member.align_scalar,
    Member.length_scalar, List.map, List.foldr, List.sum]
  decide

theorem SegmentCommand.packed {T : AddrType} (c : SegmentCommand T) : Packed c.members := by
  simp only [SegmentCommand.members, Packed, PackedFrom, structAlign, gap, Member.align_scalar,
    Member.length_scalar, Member.align_array, Member.length_array, List.map, List.foldr, List.sum]
  cases T <;> decide

theorem Section.packed {T : AddrType} (h : Section T) : Packed h.members := by
  simp only [Section.members, Packed, PackedFrom, structAlign, gap, Member.align_scalar,
    Member.length_scalar, Member.align_array, Member.length_array, List.map, List.foldr, List.sum]
  cases T <;> decide

@[simp] theorem Nlist.length_flatBytes {T : AddrType} (n : Nlist T) :
    (flatBytes n.members).length = 8 + T.size := by
  simp [flatBytes, Nlist.members]
  omega

@[simp] theorem MachHeader.length_flatBytes {T : AddrType} (h : MachHeader T) :
    (flatBytes h.members).length = 28 + T.only64 4 := by
  simp [flatBytes, MachHeader.members]
  omega

@[simp] theorem UUIDCommand.length_flatBytes (c : UUIDCommand) :
    (flatBytes c.members).length = 24 := by
  simp [flatBytes, UUIDCommand.members]

@[simp] theorem SymtabCommand.length_flatBytes (c : SymtabCommand) :
    (flatBytes c.members).length = 24 := by
  simp [flatBytes, SymtabCommand.members]

@[simp] theorem SegmentCommand.length_flatBytes {T : AddrType} (c : SegmentCommand T) :
    (flatBytes c.members).length = 40 + 4 * T.size := by
  simp [flatBytes, SegmentCommand.members]
  omega

@[simp] theorem Section.length_flatBytes {T : AddrType} (h : Section T) :
    (flatBytes h.members).length = 60 + 2 * T.size + T.only64 4 := by
  simp [flatBytes, Section.members]
  omega

theorem sizeofUUIDCommand_eq : sizeofUUIDCommand = 24 := by
  unfold sizeofUUIDCommand
  rw [structSize_eq (UUIDCommand.packed _), UUIDCommand.length_flatBytes]

theorem sizeofSymtabCommand_eq : sizeofSymtabCommand = 24 := by
  unfold sizeofSymtabCommand
  rw [structSize_eq (SymtabCommand.packed _), SymtabCommand.length_flatBytes]

theorem sizeofSegmentCommand_eq (T : AddrType) : sizeofSegmentCommand T = 40 + 4 * T.size := by
  rw [sizeofSegmentCommand, structSize_eq (SegmentCommand.packed _),
    SegmentCommand.length_flatBytes]

theorem sizeofSection_eq (T : AddrType) :
    sizeofSection T = 60 + 2 * T.size + T.only64 4 := by
  unfold sizeofSection
  rw [structSize_eq (Section.packed _), Section.length_flatBytes]

/-! ## Views -/

theorem reads_scalar {w : ℕ} (n : ℕ) (v : BitVec w) (h : w = 8 * n) :
    Reads (uint n) (Member.scalar n v).bytes v.toNat := by
  subst h
  exact reads_bitVec v

theorem reads_u32 (v : BitVec 32) : Reads (uint 4) (Member.scalar 4 v).bytes v.toNat :=
  reads_scalar 4 v rfl

theorem wordSize_is64 (T : AddrType) : MachO.wordSize T.is64 = T.size := by cases T <;> rfl

theorem reads_addr {T : AddrType} (v : Addr T) :
    Reads (uint (MachO.wordSize T.is64)) (Member.scalar T.size v).bytes v.toNat := by
  rw [wordSize_is64]
  exact reads_scalar T.size v rfl

theorem reads_name16 (v : Vector UInt8 16) :
    Reads MachO.name16 (Member.array v).bytes (MachO.trimName v.toList) :=
  (Reads.bytes (by simp [Member.array])).bind_pure

/-- The section header a reader sees. -/
def Section.view {T : AddrType} (h : Section T) : MachO.SectionHeader where
  sectname := MachO.trimName h.sectname.toList
  segname := MachO.trimName h.segname.toList
  addr := h.addr.toNat
  size := h.size.toNat
  offset := h.offset.toNat
  align := h.align.toNat
  reloff := h.reloff.toNat
  nreloc := h.nreloc.toNat
  flags := h.flags.toNat

theorem Section.reads {T : AddrType} (h : Section T) :
    Reads (MachO.sectionHeader T.is64) (flatBytes h.members) h.view := by
  have hreserved : Reads (uint (if T.is64 then 4 else 0)) (Member.scalar (T.only64 4) h.reserved3).bytes
      h.reserved3.toNat := by
    cases T
    · exact reads_scalar 0 _ rfl
    · exact reads_scalar 4 _ rfl
  exact (reads_name16 h.sectname).bind <| (reads_name16 h.segname).bind <|
    (reads_addr h.addr).bind <| (reads_addr h.size).bind <| (reads_u32 h.offset).bind <|
    (reads_u32 h.align).bind <| (reads_u32 h.reloff).bind <| (reads_u32 h.nreloc).bind <|
    (reads_u32 h.flags).bind <| (reads_u32 h.reserved1).bind <| (reads_u32 h.reserved2).bind <|
    hreserved.bind (reads_pure _)

/-- The symbol table entry a reader sees. -/
def Nlist.view {T : AddrType} (n : Nlist T) : MachO.Nlist :=
  ⟨n.nStrx.toNat, n.nType.toNat, n.nSect.toNat, n.nDesc.toNat, n.nValue.toNat⟩

theorem Nlist.reads {T : AddrType} (n : Nlist T) :
    Reads (MachO.nlist T.is64) (flatBytes n.members) n.view :=
  (reads_u32 n.nStrx).bind <| (reads_scalar 1 n.nType rfl).bind <|
    (reads_scalar 1 n.nSect rfl).bind <| (reads_scalar 2 n.nDesc rfl).bind <|
    (reads_addr n.nValue).bind (reads_pure _)

/-- The file header a reader sees. -/
def MachHeader.view {T : AddrType} (h : MachHeader T) : MachO.Header :=
  ⟨h.magic.toNat, h.cputype.toNat, h.cpusubtype.toNat, h.filetype.toNat, h.ncmds.toNat,
    h.sizeofcmds.toNat, h.flags.toNat⟩

/-- The reader stops before `reserved`, which only the 64-bit variant has. -/
theorem MachHeader.header_eq {T : AddrType} (h : MachHeader T)
    (hmagic : h.magic.toNat = MachO.magic32 ∨ h.magic.toNat = MachO.magic64)
    (rest : List UInt8) :
    ∃ rest', MachO.header (flatBytes h.members ++ rest) = some (h.view, rest') := by
  have hguard : Reads (guard (h.magic.toNat = MachO.magic32 ∨ h.magic.toNat = MachO.magic64) :
      Parser PUnit) [] PUnit.unit := by
    intro rest
    rw [guard, if_pos hmagic]
    rfl
  have hfields : Reads MachO.header
      (flatBytes (h.members.dropLast)) h.view :=
    (reads_u32 h.magic).bind <| hguard.bind <| (reads_u32 h.cputype).bind <|
      (reads_u32 h.cpusubtype).bind <| (reads_u32 h.filetype).bind <| (reads_u32 h.ncmds).bind <|
      (reads_u32 h.sizeofcmds).bind <| (reads_u32 h.flags).bind (reads_pure _)
  have hsplit : flatBytes h.members =
      flatBytes h.members.dropLast ++ (Member.scalar (T.only64 4) h.reserved).bytes := by
    simp [flatBytes, MachHeader.members]
  rw [hsplit, List.append_assoc]
  exact ⟨_, hfields _⟩

/-- The segment a reader sees when `sections` follow the command. -/
def SegmentCommand.view {T : AddrType} (c : SegmentCommand T) (sections : List (Section T)) :
    MachO.Segment where
  segname := MachO.trimName c.segname.toList
  vmaddr := c.vmaddr.toNat
  vmsize := c.vmsize.toNat
  fileoff := c.fileoff.toNat
  filesize := c.filesize.toNat
  maxprot := c.maxprot.toNat
  initprot := c.initprot.toNat
  flags := c.flags.toNat
  sections := sections.map Section.view

/-- The command word that announces a segment with addresses of type `T`. -/
def AddrType.lcSegment (T : AddrType) : BitVec 32 := if T.is64 then LC_SEGMENT_64 else LC_SEGMENT

theorem body_segment (T : AddrType) (cmdsize : ℕ) :
    MachO.body T.lcSegment.toNat cmdsize =
      (do return .segment (← MachO.segment T.is64)) := by
  cases T <;> rfl

/-- A segment command with its section headers behind it is one load command. -/
theorem SegmentCommand.reads {T : AddrType} (c : SegmentCommand T) (sections : List (Section T))
    (hcmd : c.cmd = T.lcSegment) (hn : c.nsects.toNat = sections.length) :
    Reads MachO.loadCommand
      (flatBytes c.members ++ sections.flatMap fun h => flatBytes h.members)
      (c.cmd.toNat, c.cmdsize.toNat, .segment (c.view sections)) := by
  have hsections : Reads (times (MachO.sectionHeader T.is64) c.nsects.toNat)
      (sections.flatMap fun h => flatBytes h.members) (sections.map Section.view) := by
    rw [hn]
    exact reads_times fun h _ => h.reads
  have hfields : Reads (MachO.segment T.is64)
      (flatBytes (c.members.drop 2) ++ sections.flatMap fun h => flatBytes h.members)
      (c.view sections) := by
    have hbytes : flatBytes (c.members.drop 2) ++ (sections.flatMap fun h => flatBytes h.members) =
        (Member.array c.segname).bytes ++ ((Member.scalar T.size c.vmaddr).bytes ++
        ((Member.scalar T.size c.vmsize).bytes ++ ((Member.scalar T.size c.fileoff).bytes ++
        ((Member.scalar T.size c.filesize).bytes ++ ((Member.scalar 4 c.maxprot).bytes ++
        ((Member.scalar 4 c.initprot).bytes ++ ((Member.scalar 4 c.nsects).bytes ++
        ((Member.scalar 4 c.flags).bytes ++
        ((sections.flatMap fun h => flatBytes h.members) ++ []))))))))) := by
      simp [flatBytes, SegmentCommand.members]
    rw [hbytes]
    exact (reads_name16 c.segname).bind <| (reads_addr c.vmaddr).bind <|
      (reads_addr c.vmsize).bind <| (reads_addr c.fileoff).bind <| (reads_addr c.filesize).bind <|
      (reads_u32 c.maxprot).bind <| (reads_u32 c.initprot).bind <| (reads_u32 c.nsects).bind <|
      (reads_u32 c.flags).bind <| hsections.bind (reads_pure _)
  have hbody : Reads (MachO.body c.cmd.toNat c.cmdsize.toNat)
      (flatBytes (c.members.drop 2) ++ sections.flatMap fun h => flatBytes h.members)
      (.segment (c.view sections)) := by
    rw [hcmd, body_segment]
    exact hfields.bind_pure
  have hbytes : flatBytes c.members ++ (sections.flatMap fun h => flatBytes h.members) =
      (Member.scalar 4 c.cmd).bytes ++ ((Member.scalar 4 c.cmdsize).bytes ++
      ((flatBytes (c.members.drop 2) ++ sections.flatMap fun h => flatBytes h.members) ++ [])) := by
    simp [flatBytes, SegmentCommand.members]
  rw [hbytes]
  exact (reads_u32 c.cmd).bind <| (reads_u32 c.cmdsize).bind <| hbody.bind (reads_pure _)

def SymtabCommand.view (c : SymtabCommand) : MachO.Symtab :=
  ⟨c.symoff.toNat, c.nsyms.toNat, c.stroff.toNat, c.strsize.toNat⟩

theorem SymtabCommand.reads (c : SymtabCommand) (hcmd : c.cmd = LC_SYMTAB) :
    Reads MachO.loadCommand (flatBytes c.members)
      (c.cmd.toNat, c.cmdsize.toNat, .symtab c.view) := by
  have hfields : Reads MachO.symtab (flatBytes (c.members.drop 2)) c.view :=
    (reads_u32 c.symoff).bind <| (reads_u32 c.nsyms).bind <| (reads_u32 c.stroff).bind <|
      (reads_u32 c.strsize).bind (reads_pure _)
  have hbody : Reads (MachO.body c.cmd.toNat c.cmdsize.toNat) (flatBytes (c.members.drop 2))
      (.symtab c.view) := by
    rw [hcmd]
    exact hfields.bind_pure
  have hbytes : flatBytes c.members = (Member.scalar 4 c.cmd).bytes ++
      ((Member.scalar 4 c.cmdsize).bytes ++ (flatBytes (c.members.drop 2) ++ [])) := by
    simp [flatBytes, SymtabCommand.members]
  rw [hbytes]
  exact (reads_u32 c.cmd).bind <| (reads_u32 c.cmdsize).bind <| hbody.bind (reads_pure _)

theorem UUIDCommand.reads (c : UUIDCommand) (hcmd : c.cmd = LC_UUID) :
    Reads MachO.loadCommand (flatBytes c.members)
      (c.cmd.toNat, c.cmdsize.toNat, .uuid c.uuid.toList) := by
  have hpayload : Reads (bytes 16) (Member.array c.uuid).bytes c.uuid.toList :=
    .bytes (by simp)
  have hbody : Reads (MachO.body c.cmd.toNat c.cmdsize.toNat) (Member.array c.uuid).bytes
      (.uuid c.uuid.toList) := by
    rw [hcmd]
    exact hpayload.bind_pure
  exact (reads_u32 c.cmd).bind <| (reads_u32 c.cmdsize).bind <| hbody.bind (reads_pure _)

end DSYMCreator
