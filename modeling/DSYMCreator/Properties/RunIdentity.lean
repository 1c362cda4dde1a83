import DSYMCreator.Properties.CreatedFile
import DSYMCreator.Properties.SegmentMaximum
import DSYMCreator.Properties.SegmentsDisjoint

/-!
# The symbol file belongs to the binary

After a run the symbol file has the UUID of the binary, by which a debugger finds it,
and its debug addresses are behind all segments of the binary.
-/
namespace DSYMCreator

open Text Binary MachO MachoDump Macho

namespace Macho

variable {T : AddrType} {stack : StackContents} {symbols : List (Symbol T)} {off : Addr T}

/-- The range is behind `top` and ends below the top of the address type. -/
def Behind (T : AddrType) (top addr size : ℕ) : Prop :=
  top ≤ addr ∧ addr + size ≤ 2 ^ (8 * T.size)

theorem image_behind {top : ℕ} (hsize : outputSize symbols < 2 ^ 32)
    (hbase : top ≤ (alignTo off kAlignBase).toNat)
    (hfit : (alignTo off kAlignBase).toNat + outputSize symbols < 2 ^ (8 * T.size)) :
    (∀ s ∈ (headerViews stack symbols off).sections, Behind T top s.addr s.size) ∧
      Behind T top (headerViews stack symbols off).dwarf.vmaddr
        (headerViews stack symbols off).dwarf.filesize := by
  constructor
  · intro s hs
    obtain ⟨o, hoffset, haddr⟩ := headerViews_addr s hs
    have hbound := headerViews_section_bound hsize hs
    have hsum := toNat_addr (alignTo off kAlignBase) o (by omega)
    unfold Behind
    rw [haddr, hsum]
    omega
  · have hstart := tables_dwarfStart (tablesEnd_fits hsize)
    have hfilesize : lineOff symbols + (dwarfView stack symbols off).filesize =
        outputSize symbols := dwarfView_filesize hsize
    have hsum := toNat_addr (alignTo off kAlignBase) (tables symbols).dwarfStart (by omega)
    change Behind T top (alignTo off kAlignBase + (tables symbols).dwarfStart.setWidth _).toNat
      (dwarfView stack symbols off).filesize
    unfold Behind
    rw [hsum]
    omega

end Macho

namespace MainScript

open Text.PosixPath Runs Python

variable {m : Machine} {tools : Tools} {options : Options} {w w' : World} {binary thin : Bytes}
  {im : Image} {n : ℕ}

/-- In both modes the file of a run that returned has the UUID of the part of the binary that was
asked for, as long as the file is `Small`. -/
theorem run_uuid (h : Ready m tools options binary w)
    (hsmall : Small m.host.stack tools options binary)
    (hthin : tools.thin options.arm64 binary = some thin) (him : image? thin = some im)
    (hwalk : im.Walkable) (huuid : im.uuids ≠ []) (hrun : main m options w = .ok n w') :
    ∃ file f, w'.files (outputSymbolPath m.cwd options.binaryPath) = some file ∧
      MachO.readFile file = some f ∧ f.uuids = im.uuids := by
  obtain ⟨thin', symbols, file, hthin', -, hfile, -, -, himage⟩ := created_of_run h hsmall hrun
  rw [hthin] at hthin'
  obtain rfl : thin = thin' := Option.some.inj hthin'
  obtain ⟨uuid, -, vmbase, hextract, -, -, hfits, himage⟩ := himage
  rw [extract_eq him hwalk, if_neg (uuidsFound_ne_nil huuid)] at hextract
  have htext : DSYMCreator.runBash (unlines (uuidsFound im)) = uuid := Except.ok.inj hextract
  have hdump := hfits.dump_eq m.host.stack vmbase
  rw [← himage] at hdump
  obtain ⟨-, f, hread, hf⟩ := uuids_of_dump hdump
  refine ⟨file, f, hfile, hread, ?_⟩
  rw [hf]
  rw [← htext] at hfits ⊢
  exact uuid_of_fits hwalk huuid m.host.stack hfits

theorem run_uuid_sample :
    ∃ w' : World, ∃ file f, w'.files (ascii "/b.symbol") = some file ∧
      MachO.readFile file = some f ∧ f.uuids = [(List.range 16).map UInt8.ofNat] := by
  obtain ⟨n, w', hrun⟩ := sampleIdaRun
  obtain ⟨file, f, hfile, hread, huuids⟩ := run_uuid (sampleReady false) small_idaSample sampleThin
    sampleImage_eq sampleImage_wellFormed.toWalkable (by decide +kernel) hrun
  have huuid : sampleImage.uuids = [(List.range 16).map UInt8.ofNat] := by decide +kernel
  rw [sample_output] at hfile
  exact ⟨w', file, f, hfile, hread, huuids.trans huuid⟩

/-- Where the strings of the binary do not disturb the script and the addresses suffice, all debug
addresses of the symbol file are behind all segments of the binary. -/
theorem run_behind_segments (h : Ready m tools options binary w)
    (hsmall : Small m.host.stack tools options binary)
    (hthin : tools.thin options.arm64 binary = some thin) (him : image? thin = some im)
    (hwell : im.WellFormed) (hsegments : im.segments ≠ []) (hharmless : Harmless im)
    (hfit : ∀ buf, symbolFile m.host.stack tools options binary = some buf →
      roundUp 0x1000 (segmentsTop im) + buf.length < 2 ^ (8 * options.addrType.size))
    (hrun : main m options w = .ok n w') :
    ∃ file f, ∃ hs : Headers, w'.files (outputSymbolPath m.cwd options.binaryPath) = some file ∧
      MachO.readFile file = some f ∧ hs.FoundIn f ∧ ∀ r ∈ im.segments,
        (∀ s ∈ hs.sections, Behind options.addrType (r.1 + r.2) s.addr s.size) ∧
          Behind options.addrType (r.1 + r.2) hs.dwarf.vmaddr hs.dwarf.filesize := by
  obtain ⟨thin', symbols, file, hthin', hmade, hfile, -, hsize, himage⟩ :=
    created_of_run h hsmall hrun
  rw [hthin] at hthin'
  obtain rfl : thin = thin' := Option.some.inj hthin'
  obtain ⟨uuid, offset, vmbase, -, hoffset, hvmbase, hfits, himage⟩ := himage
  have hroom := hfit file hmade
  rw [himage, length_image hfits] at hroom
  obtain ⟨n', hcalculate, hn'⟩ := calculate_of_even ⟨_, prints_document him hwell⟩ him hsegments
    hharmless.even
  obtain rfl : offset = n' := Except.ok.inj (hoffset.symm.trans hcalculate)
  have htop : greatestEnd 0x1000 (pairs (shownNumbers im)) = segmentsTop im :=
    greatestEnd_eq_iff.mpr ⟨(greatestEnd_eq_iff.mp rfl).1, hharmless.bounded, hharmless.reached⟩
  rw [htop] at hn'
  have hround := le_roundUp (a := 0x1000) (by norm_num) (segmentsTop im)
  have hnat : offset.value.toNat = segmentsTop im := by omega
  have hparse := parseVmbase_hex (T := options.addrType) (n := offset) (by omega) (by omega)
  have hbase : (alignTo vmbase kAlignBase).toNat = roundUp 0x1000 (segmentsTop im) := by
    have hlt : segmentsTop im < 2 ^ (8 * options.addrType.size) := by omega
    have hlt' : roundUp 0x1000 (segmentsTop im) < 2 ^ (8 * options.addrType.size) := by omega
    rw [Except.ok.inj (hvmbase.symm.trans hparse), vmbase_toNat, BitVec.toNat_ofNat, hnat,
      Nat.mod_eq_of_lt hlt, Nat.mod_eq_of_lt hlt']
  refine ⟨file, _, _, hfile, ?_, headerViews_foundIn m.host.stack symbols vmbase uuid, ?_⟩
  · rw [himage]
    exact readFile_image
  intro r hr
  have hend : r.1 + r.2 ≤ segmentsTop im := (greatestEnd_eq_iff.mp rfl).2.1 r hr
  exact image_behind hsize (by omega) (by omega)

theorem run_behind_segments_sample :
    ∃ w' : World, ∃ file f, ∃ hs : Headers, w'.files (ascii "/b.symbol") = some file ∧
      MachO.readFile file = some f ∧ hs.FoundIn f ∧
      ∀ s ∈ hs.sections, Behind .uint32 0x5000 s.addr s.size := by
  obtain ⟨n, w', hrun⟩ := sampleIdaRun
  have htop : segmentsTop sampleImage = 0x5000 := by decide +kernel
  have hroom (buf : ByteBuffer) (hbuf : symbolFile clearStack sampleTools (sampleOptions false)
      sampleBinary = some buf) :
      roundUp 0x1000 (segmentsTop sampleImage) + buf.length < 2 ^ 32 := by
    rw [htop, length_idaSample hbuf]
    exact sample_idaSymbols.2.2.2
  have hharmless : Harmless sampleImage := harmless_of_no_strays (by decide +kernel)
  obtain ⟨file, f, hs, hfile, hread, hfound, hbehind⟩ := run_behind_segments (sampleReady false)
    small_idaSample sampleThin sampleImage_eq sampleImage_wellFormed (by decide +kernel) hharmless
    hroom hrun
  rw [sample_output] at hfile
  have hmem : (0x4000, 0x1000) ∈ sampleImage.segments := by decide +kernel
  exact ⟨w', file, f, hs, hfile, hread, hfound, (hbehind _ hmem).1⟩

end MainScript

end DSYMCreator
