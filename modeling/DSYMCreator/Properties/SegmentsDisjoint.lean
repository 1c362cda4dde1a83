import DSYMCreator.Properties.FileLayout
import DSYMCreator.Script.Segments
import DSYMCreator.Tool.Main

/-!
# The DWARF addresses and the program's segments

The script passes the end of the last segment on as hexadecimal text, the tool
parses it and rounds it up to a page, and every address of the `__DWARF` segment
is that base plus an offset of the file. As long as base and file fit below the
top of the address type, nothing of it lies inside a segment.
-/
namespace DSYMCreator.Macho

open Binary Text Python

variable {T : AddrType}

/-- No address lies both in `[addr, addr + size)` and in the segment. -/
def DisjointFrom (addr size : ℕ) (segment : PyInt × PyInt) : Prop :=
  ∀ x : ℤ, ¬ ((addr ≤ x ∧ x < addr + size) ∧
    (segment.1.value ≤ x ∧ x < segment.1.value + segment.2.value))

theorem parseVmbase_hex {n : PyInt} (hpos : 0 ≤ n.value)
    (hlt : n.value.toNat < 2 ^ (8 * T.size)) :
    parseVmbase T n.hex = .ok (BitVec.ofNat (8 * T.size) n.value.toNat) := by
  have hword : n.value.toNat < 2 ^ 64 := by
    refine hlt.trans_le (Nat.pow_le_pow_right (by norm_num) ?_)
    cases T <;> decide
  have habs : n.value.natAbs = n.value.toNat := by omega
  have hvalue : BitVec.ofInt 64 n.value = BitVec.ofNat 64 n.value.toNat := by
    rw [← BitVec.ofInt_natCast, Int.toNat_of_nonneg hpos]
  unfold parseVmbase
  rw [stoullTo, stoull_hex, habs, if_neg (not_le.mpr hword), hvalue]
  change Except.ok ((BitVec.ofNat 64 n.value.toNat).setWidth (8 * T.size)) = _
  congr 1
  apply BitVec.eq_of_toNat_eq
  rw [BitVec.toNat_setWidth, BitVec.toNat_ofNat, BitVec.toNat_ofNat, Nat.mod_eq_of_lt hword]

/-- An address behind the base does not wrap while its range ends below the top. -/
theorem toNat_addr (vmbase : Addr T) (offset : BitVec 32)
    (h : vmbase.toNat + offset.toNat < 2 ^ (8 * T.size)) :
    (vmbase + offset.setWidth _).toNat = vmbase.toNat + offset.toNat := by
  rw [BitVec.toNat_add, toNat_setWidth_u32, Nat.mod_eq_of_lt h]

theorem disjointFrom_of_le {vmbase : Addr T} {offset : BitVec 32} {size : ℕ}
    {segment : PyInt × PyInt} (hbase : segment.1.value + segment.2.value ≤ vmbase.toNat)
    (hfit : vmbase.toNat + offset.toNat + size ≤ 2 ^ (8 * T.size)) :
    DisjointFrom (vmbase + offset.setWidth _).toNat size segment := by
  rintro x ⟨⟨hlow, hhigh⟩, -, hend⟩
  -- an empty range may wrap, but has no address
  have haddr := toNat_addr vmbase offset (by omega)
  rw [haddr] at hlow
  push_cast at hlow
  omega

section

variable {stack : StackContents} {uuid : StdString} {symbols : List (Symbol T)} {off : Addr T}

theorem headerViews_addr (s : MachO.SectionHeader) (hs : s ∈ (headerViews stack symbols off).sections) :
    ∃ o : BitVec 32, s.offset = o.toNat ∧ s.addr = (alignTo off kAlignBase + o.setWidth _).toNat := by
  simp only [Headers.sections, headerViews, List.mem_cons, List.not_mem_nil, or_false] at hs
  rcases hs with rfl | rfl | rfl | rfl
  · exact ⟨(tables symbols).dwarfStart, rfl, rfl⟩
  · exact ⟨(tables symbols).infoOffset, rfl, rfl⟩
  · exact ⟨(tables symbols).abbrevOffset, rfl, rfl⟩
  · exact ⟨(tables symbols).strOffset, rfl, rfl⟩

theorem headerViews_section_bound (hsize : outputSize symbols < 2 ^ 32) {s : MachO.SectionHeader}
    (hs : s ∈ (headerViews stack symbols off).sections) : s.offset + s.size ≤ outputSize symbols := by
  have hbounds : ∀ r ∈ (headerViews stack symbols off).areas (fileView stack [] symbols off),
      r.stop ≤ outputSize symbols := headerViews_inBounds hsize
  apply hbounds s.region
  have hmem : s.region ∈ (headerViews stack symbols off).sections.map MachO.SectionHeader.region :=
    List.mem_map_of_mem hs
  exact List.mem_cons_of_mem _ (List.mem_cons_of_mem _ (List.mem_cons_of_mem _ hmem))

theorem image_disjoint {segments : List (PyInt × PyInt)} (hsize : outputSize symbols < 2 ^ 32)
    (hbase : segmentsEnd 0x1000 segments ≤ (alignTo off kAlignBase).toNat)
    (hfit : (alignTo off kAlignBase).toNat + outputSize symbols ≤ 2 ^ (8 * T.size))
    {segment : PyInt × PyInt} (hmem : segment ∈ segments) :
    (∀ s ∈ (headerViews stack symbols off).sections, DisjointFrom s.addr s.size segment) ∧
      DisjointFrom (headerViews stack symbols off).dwarf.vmaddr
        (headerViews stack symbols off).dwarf.filesize segment := by
  have hend := (end_le_segmentsEnd 0x1000 hmem).trans hbase
  constructor
  · intro s hs
    obtain ⟨o, hoffset, haddr⟩ := headerViews_addr s hs
    have hbound := headerViews_section_bound hsize hs
    rw [haddr]
    exact disjointFrom_of_le hend (by omega)
  · have hstart := tables_dwarfStart (tablesEnd_fits hsize)
    have hfilesize : lineOff symbols + (dwarfView stack symbols off).filesize =
        outputSize symbols := dwarfView_filesize hsize
    apply disjointFrom_of_le hend
    change _ + (dwarfView stack symbols off).filesize ≤ _
    omega

end

/-- From the lines of segments to the file: the number is computed, printed, parsed and
rounded, the dump returns, and the ranges of the DWARF sections and of the DWARF segment
are disjoint from every segment that was read. -/
theorem dwarf_disjoint_from_segments {result : Bytes} {segments : List (PyInt × PyInt)}
    (hsegments : segmentsOf result = .ok segments) (stack : StackContents) (uuid : StdString)
    (symbols : List (Symbol T)) (huuid : (cleanUuid uuid).length = 32)
    (hsize : outputSize symbols < 2 ^ 32)
    (hfit : roundUp 0x1000 (segmentsEnd 0x1000 segments).toNat + outputSize symbols ≤
      2 ^ (8 * T.size)) :
    ∃ n, calculateDwarfSectionsMinFileOffset result = .ok n ∧
      ∃ off, parseVmbase T n.hex = .ok off ∧
      ∃ buf f, ∃ hs : Headers, dump stack uuid symbols off = .ok buf ∧ buf.length = outputSize symbols ∧
        MachO.readFile buf = some f ∧ hs.FoundIn f ∧
        ∀ segment ∈ segments, (∀ s ∈ hs.sections, DisjointFrom s.addr s.size segment) ∧
          DisjointFrom hs.dwarf.vmaddr hs.dwarf.filesize segment := by
  obtain ⟨n, hcalculate, hn⟩ := calculate_eq hsegments
  have hpos : (0 : ℤ) ≤ n.value := by
    have hle := le_segmentsEnd 0x1000 segments
    omega
  have hround := le_roundUp (a := 0x1000) (by norm_num) n.value.toNat
  have hlength : 0 < outputSize symbols := by
    simp only [outputSize, strOff]
    omega
  rw [← hn] at hfit
  have hparse : parseVmbase T n.hex = .ok (BitVec.ofNat (8 * T.size) n.value.toNat) :=
    parseVmbase_hex hpos (by omega)
  have hoff : (BitVec.ofNat (8 * T.size) n.value.toNat).toNat = n.value.toNat := by
    rw [BitVec.toNat_ofNat, Nat.mod_eq_of_lt (by omega)]
  have hvmbase : (alignTo (BitVec.ofNat (8 * T.size) n.value.toNat) kAlignBase).toNat =
      roundUp 0x1000 n.value.toNat := by
    rw [vmbase_toNat, hoff, Nat.mod_eq_of_lt (by omega)]
  have hfits : Fits uuid symbols := ⟨huuid, tablesEnd_fits hsize⟩
  refine ⟨n, hcalculate, _, hparse, _, _, _, hfits.dump_eq stack _,
    length_image hfits, readFile_image, headerViews_foundIn stack symbols _ uuid, ?_⟩
  intro segment hmem
  refine image_disjoint hsize ?_ ?_ hmem
  · rw [hvmbase, ← hn]
    omega
  · rw [hvmbase]
    exact hfit

/-- Two segments, as the shell pipeline prints them. -/
def sampleSegments : Bytes := joinWith newline [ascii "16384 32768", ascii "0 16384"]

theorem dwarf_disjoint_from_sample_segments : ∃ segments, segmentsOf sampleSegments = .ok segments ∧
    ∃ n, calculateDwarfSectionsMinFileOffset sampleSegments = .ok n ∧
      ∃ off, parseVmbase .uint32 n.hex = .ok off ∧
      ∃ buf f, ∃ hs : Headers, dump clearStack usageUuid (mixedSymbols .uint32) off = .ok buf ∧
        MachO.readFile buf = some f ∧ hs.FoundIn f ∧
        ∀ segment ∈ segments, (∀ s ∈ hs.sections, DisjointFrom s.addr s.size segment) ∧
          DisjointFrom hs.dwarf.vmaddr hs.dwarf.filesize segment := by
  have hsegments : segmentsOf sampleSegments =
      .ok [(.ofValue 16384, .ofValue 32768), (.ofValue 0, .ofValue 16384)] := by rfl
  obtain ⟨n, hn, off, hoff, buf, f, hs, hdump, -, hread, hfound, hdisjoint⟩ :=
    dwarf_disjoint_from_segments hsegments clearStack usageUuid (mixedSymbols .uint32)
      (by decide) (by decide) (by decide)
  exact ⟨_, hsegments, n, hn, off, hoff, buf, f, hs, hdump, hread, hfound, hdisjoint⟩

end DSYMCreator.Macho
