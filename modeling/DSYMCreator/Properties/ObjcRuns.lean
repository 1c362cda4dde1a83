import DSYMCreator.Properties.CreatedFile
import DSYMCreator.Properties.Symbolication

/-!
# Runs without IDA

Between `objc-symbols` and a debugger the methods go through a sorted text, the ranges
of the script, the tool's conversion and the debug sections of the file. A debugger
finds the right method for every instruction all the same.
-/
namespace DSYMCreator

open Text Python Macho DebugFile

variable {T : AddrType}

theorem toNat_ofInt_of_lt {v : ℤ} (hpos : 0 ≤ v) (hlt : v < 2 ^ (8 * T.size)) :
    ((BitVec.ofInt (8 * T.size) v).toNat : ℤ) = v := by
  rw [BitVec.toNat_ofInt, Int.toNat_of_nonneg (Int.emod_nonneg _ (by positivity))]
  exact Int.emod_eq_of_lt hpos (by exact_mod_cast hlt)

theorem debugFunction_contains {s : RawSymbol} (pc : ℕ)
    (hstart : 0 ≤ s.start.value ∧ s.start.value < 2 ^ (8 * T.size))
    (hfin : 0 ≤ s.fin.value ∧ s.fin.value < 2 ^ (8 * T.size)) :
    (debugFunction (s.readBack T)).contains pc = s.contains pc := by
  have hlow := toNat_ofInt_of_lt hstart.1 hstart.2
  have hhigh := toNat_ofInt_of_lt hfin.1 hfin.2
  have hle : (BitVec.ofInt (8 * T.size) s.start.value).toNat ≤ pc ↔ s.start.value ≤ pc := by omega
  have hlt : pc < (BitVec.ofInt (8 * T.size) s.fin.value).toNat ↔ (pc : ℤ) < s.fin.value := by omega
  unfold Function.contains RawSymbol.contains
  rw [Bool.decide_and]
  exact congrArg₂ (· && ·) (decide_eq_decide.mpr hle) (decide_eq_decide.mpr hlt)

namespace Method

theorem written_bounds {arch : Arch} {ms : List Method} (himp : ∀ m ∈ ms, arch.IsImp m.address)
    (hwidth : ∀ m ∈ ms, m.address + 0x1000 ≤ 2 ^ (8 * T.size)) {s : RawSymbol}
    (hs : s ∈ written ms) :
    (0 ≤ s.start.value ∧ s.start.value < 2 ^ (8 * T.size)) ∧
      (0 ≤ s.fin.value ∧ s.fin.value < 2 ^ (8 * T.size)) := by
  obtain ⟨m, hm, -, hstart, n, hn, hfin⟩ := mem_written hs
  obtain ⟨hstart_pos, hfin_pos⟩ := written_unsigned himp hs
  have hmwidth := hwidth m hm
  have hnwidth := hwidth n hn
  have hcast : ((2 ^ (8 * T.size) : ℕ) : ℤ) = 2 ^ (8 * T.size) := by push_cast; rfl
  rw [← hcast]
  refine ⟨⟨hstart_pos, by omega⟩, hfin_pos, ?_⟩
  rcases hfin with hfin | hfin
  · omega
  · omega

theorem symbolicate_written {arch : Arch} {k : ℕ} {ms : List Method} {file : ByteBuffer} {pc : ℕ}
    (hfile : functions file = some (((written ms).map (RawSymbol.readBack T)).map debugFunction))
    (hlen : ∀ m ∈ ms, m.digits.length = k) (himp : ∀ m ∈ ms, arch.IsImp m.address)
    (hwidth : ∀ m ∈ ms, m.address + 0x1000 ≤ 2 ^ (8 * T.size))
    (hpc : arch.IsInstruction pc) (hlow : ∃ m ∈ ms, m.code ≤ pc)
    (hhigh : ∃ m ∈ ms, pc < m.code + 0x1000) :
    ∃ m ∈ ms, symbolicate file pc = some [cStr m.name] ∧ m.code ≤ pc ∧
      ∀ n ∈ ms, n.code ≤ pc → n.code ≤ m.code := by
  obtain ⟨m, hm, s, hfilter, hs, hmpc, hgreatest⟩ := written_filter hlen himp hpc hlow hhigh
  refine ⟨m, hm, ?_, hmpc, hgreatest⟩
  have hname : s.name = m.name := (Prod.ext_iff.mp hs).2
  have hsame : (written ms).filter (fun s => (debugFunction (s.readBack T)).contains pc) = [s] := by
    rw [← hfilter]
    apply List.filter_congr
    intro t ht
    obtain ⟨hstart, hfin⟩ := written_bounds (T := T) himp hwidth ht
    exact debugFunction_contains pc hstart hfin
  have hcomp : (Function.contains pc ∘ debugFunction) ∘ RawSymbol.readBack T =
      fun s => (debugFunction (s.readBack T)).contains pc := rfl
  unfold symbolicate
  rw [hfile, Option.map_some, List.filter_map, List.filter_map, hcomp, hsame]
  simp only [List.map_cons, List.map_nil]
  rw [← hname]
  rfl

end Method

namespace MainScript

open Text.PosixPath Runs Method

variable {m : Machine} {tools : Tools} {options : Options} {w w' : World} {binary thin : Bytes}
  {n k : ℕ} {ms : List Method}

theorem rawSymbols_objc_iff (hobjc : options.onlyObjc = true)
    (hlines : tools.objcSymbols (arch options.arm64) thin = ms.map line)
    {symbols : List (Symbol options.addrType)} :
    (∃ text, tools.rawSymbols options thin = some text ∧
        readRawSymbolData options.addrType text = .ok symbols) ↔
      ms ≠ [] ∧ IsUtf8 (formatSymbols (written ms)) ∧ (∀ s ∈ written ms, s.Readable) ∧
        symbols = (written ms).map (RawSymbol.readBack options.addrType) := by
  rw [← readObjcSymbols_eq_some_iff]
  unfold Tools.rawSymbols readObjcSymbols
  rw [if_pos hobjc, hlines, Option.bind_eq_bind, Option.bind_eq_some_iff]
  simp only [toOption_eq_some]

theorem nul_notMem_cStr (s : Bytes) : 0 ∉ cStr s := by
  intro hmem
  simpa using List.mem_takeWhile_imp hmem

/-- Whenever a run without IDA returns, a debugger finds with the symbol file the right method for
every instruction from the first method to a page behind the last. -/
theorem objcRun_symbolicates (h : Ready m tools options binary w)
    (hsmall : Small m.host.stack tools options binary) (hobjc : options.onlyObjc = true)
    (hthin : tools.thin options.arm64 binary = some thin)
    (hlines : tools.objcSymbols (arch options.arm64) thin = ms.map line)
    (hlen : ∀ m ∈ ms, m.digits.length = k)
    (himp : ∀ m ∈ ms, (arch options.arm64).IsImp m.address)
    (hwidth : ∀ m ∈ ms, m.address + 0x1000 ≤ 2 ^ (8 * options.addrType.size))
    (hrun : main m options w = .ok n w') :
    ∃ file, w'.files (outputSymbolPath m.cwd options.binaryPath) = some file ∧
      ∀ pc, (arch options.arm64).IsInstruction pc → (∃ m ∈ ms, m.code ≤ pc) →
        (∃ m ∈ ms, pc < m.code + 0x1000) →
        ∃ m ∈ ms, symbolicate file pc = some [cStr m.name] ∧ m.code ≤ pc ∧
          ∀ n ∈ ms, n.code ≤ pc → n.code ≤ m.code := by
  obtain ⟨thin', symbols, file, hthin', -, hfile, ⟨text, htext, hsymbols⟩, hsize, himage⟩ :=
    created_of_run h hsmall hrun
  rw [hthin] at hthin'
  obtain rfl : thin = thin' := Option.some.inj hthin'
  have hwritten := ((rawSymbols_objc_iff hobjc hlines).mp ⟨text, htext, hsymbols⟩).2.2.2
  obtain ⟨uuid, -, vmbase, -, -, -, hfits, himage⟩ := himage
  have hnul : ∀ s ∈ symbols, 0 ∉ s.name := by
    intro s hs
    rw [hwritten] at hs
    obtain ⟨r, -, rfl⟩ := List.mem_map.mp hs
    exact nul_notMem_cStr r.name
  have hfunctions : functions file = some (symbols.map debugFunction) := by
    rw [himage]
    exact functions_image hfits hnul hsize
  rw [hwritten] at hfunctions
  exact ⟨file, hfile, fun pc hpc hlow hhigh =>
    symbolicate_written hfunctions hlen himp hwidth hpc hlow hhigh⟩

theorem sampleMethods_written : IsUtf8 (formatSymbols (written sampleMethods)) ∧
    ∀ s ∈ written sampleMethods, s.Readable := by
  refine ⟨isUtf8_of_ascii fun c hc => ?_, written_readable (by decide) (by decide)⟩
  have hall : (formatSymbols (written sampleMethods)).all (fun c => c < 128) = true := by
    decide +kernel
  simpa using List.all_eq_true.mp hall c hc

theorem sample_objcText :
    ∃ text, sampleTools.rawSymbols (sampleOptions true) sampleBinary = some text ∧
      readRawSymbolData .uint32 text =
        .ok ((written sampleMethods).map (RawSymbol.readBack .uint32)) :=
  (rawSymbols_objc_iff rfl rfl).mpr
    ⟨by decide, sampleMethods_written.1, sampleMethods_written.2, rfl⟩

theorem objcRun_symbolicates_sample :
    ∃ n w' file, main sampleMachine (sampleOptions true) sampleWorld = .ok n w' ∧
      w'.files (ascii "/b.symbol") = some file ∧
      ∃ m ∈ sampleMethods, symbolicate file 0x4010 = some [cStr m.name] ∧ m.code ≤ 0x4010 := by
  obtain ⟨text, htext, hsymbols⟩ := sample_objcText
  obtain ⟨n, w', hrun⟩ := sampleRun htext hsymbols (by decide +kernel)
  have hsmall : Small clearStack sampleTools (sampleOptions true) sampleBinary := by
    intro buf hbuf
    have hlength : buf.length = outputSize ((written sampleMethods).map
        (RawSymbol.readBack .uint32)) :=
      length_symbolFile (sampleOptions true) sampleThin htext hsymbols hbuf
    rw [hlength]
    decide +kernel
  have hlines : sampleTools.objcSymbols (arch false) sampleBinary = sampleMethods.map line := rfl
  obtain ⟨file, hfile, hfind⟩ := objcRun_symbolicates (k := 4) (sampleReady true) hsmall rfl
    sampleThin hlines (by decide) (by decide) (by decide) hrun
  rw [sample_output] at hfile
  obtain ⟨m, hm, hname, hmpc, -⟩ := hfind 0x4010 (by decide) (by decide) (by decide)
  exact ⟨n, w', file, hrun, hfile, m, hm, hname, hmpc⟩

/-- For a binary that can be dumped, with a UUID and segments, a run without IDA returns exactly
when the methods can be read, the binary's UUID is the only one that shows, the numbers that show
are pairs with sums of 64 bits, and the tables fit. -/
theorem objcRun_returns_iff {im : MachO.Image} (h : Ready m tools options binary w)
    (hobjc : options.onlyObjc = true) (hthin : tools.thin options.arm64 binary = some thin)
    (hlines : tools.objcSymbols (arch options.arm64) thin = ms.map line)
    (him : MachO.image? thin = some im) (hwell : im.WellFormed) (huuid : im.uuids ≠ [])
    (hsegments : im.segments ≠ []) :
    (∃ n w', main m options w = .ok n w') ↔
      (ms ≠ [] ∧ IsUtf8 (formatSymbols (written ms)) ∧ ∀ s ∈ written ms, s.Readable) ∧
      (Even (strayRuns im).length ∧ greatestEnd 0x1000 (pairs (shownNumbers im)) < 2 ^ 64) ∧
      im.uuids.length = 1 ∧ (∀ s ∈ im.strings, MachoDump.strayUuids s = []) ∧
      tablesEnd ((written ms).map (RawSymbol.readBack options.addrType)) + 0x1000 ≤ 2 ^ 32 := by
  rw [(main_refines h.documented h.works h.binary h.ida).exists_ok_iff]
  constructor
  · rintro ⟨buf, hbuf⟩
    obtain ⟨thin', text, -, -, -, symbols, hthin', htext, -, -, -, hsymbols, -⟩ :=
      symbolFile_eq_some_iff.mp hbuf
    rw [hthin] at hthin'
    obtain rfl : thin = thin' := Option.some.inj hthin'
    obtain ⟨hne, hutf, hreadable, hwritten⟩ :=
      (rawSymbols_objc_iff hobjc hlines).mp ⟨text, htext, hsymbols⟩
    rw [hwritten] at hsymbols
    exact ⟨⟨hne, hutf, hreadable⟩,
      (exists_symbolFile_iff hthin htext hsymbols him hwell huuid hsegments).mp ⟨buf, hbuf⟩⟩
  · rintro ⟨⟨hne, hutf, hreadable⟩, hrest⟩
    obtain ⟨text, htext, hsymbols⟩ :=
      (rawSymbols_objc_iff hobjc hlines).mpr ⟨hne, hutf, hreadable, rfl⟩
    exact (exists_symbolFile_iff hthin htext hsymbols him hwell huuid hsegments).mpr hrest

theorem objcRun_returns_sample :
    ∃ n w', main sampleMachine (sampleOptions true) sampleWorld = .ok n w' :=
  (objcRun_returns_iff (sampleReady true) rfl sampleThin rfl sampleImage_eq sampleImage_wellFormed
      (by decide +kernel) (by decide +kernel)).mpr
    ⟨⟨by decide, sampleMethods_written⟩, by decide +kernel, by decide +kernel, by decide +kernel,
      by decide +kernel⟩

end MainScript

end DSYMCreator
