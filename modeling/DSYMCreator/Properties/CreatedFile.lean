import DSYMCreator.Formats.DebugFile
import DSYMCreator.Properties.DebugInfoRoundTrip
import DSYMCreator.Properties.IdaSymbols
import DSYMCreator.Properties.ScrapedUuid
import DSYMCreator.Properties.SegmentMaximum
import DSYMCreator.Properties.Symbolication
import DSYMCreator.Script.Simulated
import DSYMCreator.Script.PipelineRuns

/-!
# The file of a successful run

When the script returns, every step of the pipeline had a result, and the file is
the image of the symbols that were read from the text. A debugger finds these
symbols as functions.
-/
namespace DSYMCreator

open Text Binary

namespace Macho

open StringTable DwarfDebugInfoSection DebugFile

variable {T : AddrType} {stack : StackContents} {uuid : StdString} {symbols : List (Symbol T)}
  {off : Addr T}

/-- A symbol as a debugger sees it. -/
def debugFunction (s : Symbol T) : DebugFile.Function := ⟨s.name, s.base.toNat, s.endAddr.toNat⟩

theorem function?_functionDie (s : Symbol T) : function? (functionDie s) = some (debugFunction s) :=
  rfl

theorem functions_image (h : Fits uuid symbols) (hnul : ∀ s ∈ symbols, 0 ∉ s.name)
    (hsize : outputSize symbols < 2 ^ 32) :
    functions (image stack uuid symbols off) = some (symbols.map debugFunction) := by
  have hunit : (unitBytes (nameOffset (symbols.map Symbol.name)) symbols).length < 2 ^ 32 := by
    rw [length_unitBytes]
    simp only [outputSize, strOff, abbrevOff, infoLength] at hsize
    omega
  have hread : Dwarf.readDebugInfo
      (MachO.sectionData (image stack uuid symbols off) (infoView stack symbols off))
      (MachO.sectionData (image stack uuid symbols off) (abbrevView stack symbols off))
      (MachO.sectionData (image stack uuid symbols off) (strView stack symbols off)) =
        some [⟨2, T.size, unitDie symbols⟩] := by
    rw [sectionData_info h hsize, sectionData_abbrev h hsize, sectionData_str h hsize]
    exact readDebugInfo_infoBytes (tables_stringsAt hnul h.names_lt) hunit
  rw [functions_eq readFile_image findSection_info findSection_abbrev findSection_str hread]
  have hcomp : function? ∘ functionDie (T := T) = some ∘ debugFunction :=
    funext function?_functionDie
  have hunitFunctions : unitFunctions ⟨2, T.size, unitDie symbols⟩ = symbols.map debugFunction := by
    change (symbols.map functionDie).filterMap function? = _
    rw [List.filterMap_map, hcomp, List.filterMap_eq_map]
  rw [List.flatMap_singleton, hunitFunctions]

end Macho

namespace MainScript

open Text.PosixPath Python Runs Macho DebugFile

variable {m : Machine} {tools : Tools} {options : Options} {w w' : World} {binary thin : Bytes}
  {n : ℕ} {buf : ByteBuffer} {stack : StackContents}

/-- The template argument that a run leads to. -/
abbrev Options.addrType (options : Options) : AddrType := (arch options.arm64).addrType

theorem symbolFile_eq_some_iff : symbolFile stack tools options binary = some buf ↔
    ∃ thin text uuid offset vmbase, ∃ symbols : List (Symbol options.addrType),
      tools.thin options.arm64 binary = some thin ∧ tools.rawSymbols options thin = some text ∧
      DSYMCreator.extractUuidFromBinary thin = .ok uuid ∧
      DSYMCreator.calculateDwarfSectionsMinFileOffsetFromBinary thin = .ok offset ∧
      parseVmbase options.addrType offset.hex = .ok vmbase ∧
      readRawSymbolData options.addrType text = .ok symbols ∧ Fits uuid symbols ∧
      buf = image stack uuid symbols vmbase := by
  unfold symbolFile thinSymbolFile buildFile
  simp only [Option.bind_eq_bind, Option.bind_eq_some_iff, toOption_eq_some, dump_eq_ok_iff]
  constructor
  · rintro ⟨thin, hthin, text, htext, uuid, huuid, offset, hoffset, vmbase, hvmbase, symbols,
      hsymbols, hfits, hbuf⟩
    exact ⟨thin, text, uuid, offset, vmbase, symbols, hthin, htext, huuid, hoffset, hvmbase,
      hsymbols, hfits, hbuf⟩
  · rintro ⟨thin, text, uuid, offset, vmbase, symbols, hthin, htext, huuid, hoffset, hvmbase,
      hsymbols, hfits, hbuf⟩
    exact ⟨thin, hthin, text, htext, uuid, huuid, offset, hoffset, vmbase, hvmbase, symbols,
      hsymbols, hfits, hbuf⟩

theorem exists_parseVmbase_iff (T : AddrType) (x : PyInt) :
    (∃ vmbase, parseVmbase T x.hex = .ok vmbase) ↔ x.value.natAbs < 2 ^ 64 := by
  unfold parseVmbase stoullTo
  rw [stoull_hex]
  split_ifs with hbig
  · simp only [Except.map, reduceCtorEq, exists_false, false_iff]
    omega
  · simp only [Except.map, Except.ok.injEq, exists_eq', true_iff]
    omega

theorem exists_vmbase_iff {im : MachO.Image} (him : MachO.image? thin = some im)
    (hwell : im.WellFormed) (hsegments : im.segments ≠ []) (T : AddrType) :
    (∃ offset vmbase, DSYMCreator.calculateDwarfSectionsMinFileOffsetFromBinary thin = .ok offset ∧
        parseVmbase T offset.hex = .ok vmbase) ↔
      Even (strayRuns im).length ∧ greatestEnd 0x1000 (pairs (shownNumbers im)) < 2 ^ 64 := by
  have hdumps : MachoDump.Dumps thin := ⟨_, MachoDump.prints_document him hwell⟩
  by_cases heven : Even (strayRuns im).length
  · obtain ⟨offset, hcalculate, hvalue⟩ := calculate_of_even hdumps him hsegments heven
    have hparse := exists_parseVmbase_iff T offset
    have habs : offset.value.natAbs = greatestEnd 0x1000 (pairs (shownNumbers im)) := by omega
    rw [habs] at hparse
    rw [and_iff_right heven, ← hparse, hcalculate]
    constructor
    · rintro ⟨offset', vmbase, hoffset, hvmbase⟩
      obtain rfl : offset = offset' := Except.ok.inj hoffset
      exact ⟨vmbase, hvmbase⟩
    · rintro ⟨vmbase, hvmbase⟩
      exact ⟨offset, vmbase, rfl, hvmbase⟩
  · have hcalculate := calculate_of_odd hdumps him heven
    rw [hcalculate]
    simp [heven]

theorem exists_symbolFile_iff {im : MachO.Image} {text : Bytes}
    {symbols : List (Symbol options.addrType)}
    (hthin : tools.thin options.arm64 binary = some thin)
    (htext : tools.rawSymbols options thin = some text)
    (hsymbols : readRawSymbolData options.addrType text = .ok symbols)
    (him : MachO.image? thin = some im) (hwell : im.WellFormed) (huuid : im.uuids ≠ [])
    (hsegments : im.segments ≠ []) :
    (∃ buf, symbolFile stack tools options binary = some buf) ↔
      (Even (strayRuns im).length ∧ greatestEnd 0x1000 (pairs (shownNumbers im)) < 2 ^ 64) ∧
      im.uuids.length = 1 ∧ (∀ s ∈ im.strings, MachoDump.strayUuids s = []) ∧
      tablesEnd symbols + 0x1000 ≤ 2 ^ 32 := by
  have hfits := fits_found_iff (T := options.addrType) hwell.toWalkable huuid
  have hextract := extract_eq him hwell.toWalkable
  rw [if_neg (uuidsFound_ne_nil huuid)] at hextract
  rw [← exists_vmbase_iff him hwell hsegments options.addrType, ← hfits]
  simp only [symbolFile_eq_some_iff]
  constructor
  · rintro ⟨buf, thin', text', uuid, offset, vmbase, symbols', hthin', htext', huuid', hoffset,
      hvmbase, hsymbols', hfit, -⟩
    rw [hthin] at hthin'
    obtain rfl : thin = thin' := Option.some.inj hthin'
    rw [htext] at htext'
    obtain rfl : text = text' := Option.some.inj htext'
    rw [hextract] at huuid'
    rw [← Except.ok.inj huuid', ← Except.ok.inj (hsymbols.symm.trans hsymbols')] at hfit
    exact ⟨⟨offset, vmbase, hoffset, hvmbase⟩, hfit⟩
  · rintro ⟨⟨offset, vmbase, hoffset, hvmbase⟩, hfit⟩
    exact ⟨_, thin, text, _, offset, vmbase, symbols, hthin, htext, hextract, hoffset, hvmbase,
      hsymbols, hfit, rfl⟩

theorem length_symbolFile (options : Options) {text : Bytes} {symbols : List (Symbol options.addrType)}
    (hthin : tools.thin options.arm64 binary = some thin)
    (htext : tools.rawSymbols options thin = some text)
    (hsymbols : readRawSymbolData options.addrType text = .ok symbols)
    (hbuf : symbolFile stack tools options binary = some buf) :
    buf.length = outputSize symbols := by
  obtain ⟨thin', text', uuid, offset, vmbase, symbols', hthin', htext', -, -, -, hsymbols', hfits,
    himage⟩ := symbolFile_eq_some_iff.mp hbuf
  rw [← Option.some.inj (hthin.symm.trans hthin')] at htext'
  rw [← Option.some.inj (htext.symm.trans htext')] at hsymbols'
  have hsame : symbols = symbols' := Except.ok.inj (hsymbols.symm.trans hsymbols')
  rw [himage, length_image hfits, hsame]

/-- A run can start: the outside programs are as documented, files can be written, the binary is
there, and IDA is, if it is needed. -/
structure Ready (m : Machine) (tools : Tools) (options : Options) (binary : Bytes) (w : World) :
    Prop where
  documented : Documented m tools
  works : m.host.Works
  binary : Located (abspath m.cwd options.binaryPath) binary w
  ida : options.onlyObjc = false → w.files idaExePath ≠ none

/-- The script computes the symbol file of the binary and puts it beside the binary, cut to its
length modulo `2 ^ w`; without a symbol file the run fails. `Ready` asks for a path of one word,
since the script does not quote it, in another place than the files under `/tmp`. -/
theorem main_computes_symbolFile (h : Ready m tools options binary w) :
    (∀ buf, symbolFile m.host.stack tools options binary = some buf →
        ∃ w', main m options w = .ok 0 w' ∧
          w'.files (outputSymbolPath m.cwd options.binaryPath) =
            some (buf.take (writtenSize options.addrType buf))) ∧
      (symbolFile m.host.stack tools options binary = none →
        ∃ e w', main m options w = .error e w') := by
  have hrefines := main_refines h.documented h.works h.binary h.ida
  refine ⟨fun buf hbuf => ?_, hrefines.raises⟩
  obtain ⟨n, w', hrun, hn, hfile⟩ := hrefines.returns buf hbuf
  rw [hn] at hrun
  exact ⟨w', hrun, hfile⟩

/-- The symbol file, if there is one, has fewer bytes than its 32-bit offsets can say. -/
def Small (stack : StackContents) (tools : Tools) (options : Options) (binary : Bytes) : Prop :=
  ∀ buf, symbolFile stack tools options binary = some buf → buf.length < 2 ^ 32

/-- What a run that returned leaves, and where it comes from. -/
structure Created (tools : Tools) (options : Options) (stack : StackContents) (thin : Bytes)
    (symbols : List (Symbol options.addrType)) (file : ByteBuffer) : Prop where
  read : ∃ text, tools.rawSymbols options thin = some text ∧
    readRawSymbolData options.addrType text = .ok symbols
  size : outputSize symbols < 2 ^ 32
  built : ∃ uuid offset vmbase, DSYMCreator.extractUuidFromBinary thin = .ok uuid ∧
    DSYMCreator.calculateDwarfSectionsMinFileOffsetFromBinary thin = .ok offset ∧
    parseVmbase options.addrType offset.hex = .ok vmbase ∧ Fits uuid symbols ∧
    file = Macho.image stack uuid symbols vmbase

theorem created_of_run (h : Ready m tools options binary w)
    (hsmall : Small m.host.stack tools options binary) (hrun : main m options w = .ok n w') :
    ∃ thin symbols file, tools.thin options.arm64 binary = some thin ∧
      symbolFile m.host.stack tools options binary = some file ∧
      w'.files (outputSymbolPath m.cwd options.binaryPath) = some file ∧
      Created tools options m.host.stack thin symbols file := by
  obtain ⟨buf, hbuf, -, hfile⟩ :=
    (main_refines h.documented h.works h.binary h.ida).of_ok hrun
  obtain ⟨thin, text, uuid, offset, vmbase, symbols, hthin, htext, huuid, hoffset, hvmbase,
    hsymbols, hfits, himage⟩ := symbolFile_eq_some_iff.mp hbuf
  have hlength := hsmall buf hbuf
  have hwidth : 32 ≤ 8 * options.addrType.size := by
    have hfour := AddrType.size_ge options.addrType
    omega
  have hwhole : buf.length < 2 ^ (8 * options.addrType.size) :=
    hlength.trans_le (Nat.pow_le_pow_right (by norm_num) hwidth)
  rw [(take_writtenSize_eq_iff _ _).mpr hwhole] at hfile
  have hsize : outputSize symbols < 2 ^ 32 := by rwa [himage, length_image hfits] at hlength
  exact ⟨thin, symbols, buf, hthin, hbuf, hfile, ⟨text, htext, hsymbols⟩, hsize,
    uuid, offset, vmbase, huuid, hoffset, hvmbase, hfits, himage⟩

/-! ## A small binary on a simulated machine -/

def workingHost : Host where
  stack := clearStack
  openFails _ := none
  seeks _ _ := true
  fwrite _ n := n
  fwrite_le _ _ := le_rfl

/-- A 32-bit image with one segment and a UUID. -/
def sampleBinary : Bytes :=
  [0xfeedface, 12, 9, 2, 2, 80, 0, 1, 56].flatMap (Binary.leBytes 4) ++
    (ascii "__TEXT" ++ List.replicate 10 0) ++
    [0x4000, 0x1000, 0, 0, 7, 5, 0, 0, 0x1b, 24].flatMap (Binary.leBytes 4) ++
    (List.range 16).map UInt8.ofNat

def sampleImage : MachO.Image := ⟨sampleBinary, true, false⟩

def sampleTools : Tools where
  objcSymbols _ _ := Method.sampleMethods.map Method.line
  lipo _ _ := none
  ida _ := Database.twoFunctions
  idaFiles path := {path ++ ascii ".idb"}

def sampleMachine : Machine := simulated sampleTools workingHost (ascii "/")

def sampleOptions (onlyObjc : Bool) : Options := ⟨onlyObjc, false, ascii "/b"⟩

def sampleWorld : World where
  files path := if path = ascii "/b" then some sampleBinary else
    if path = idaExePath then some [] else none
  stdout := []
  stderr := []

theorem sample_path (onlyObjc : Bool) :
    abspath sampleMachine.cwd (sampleOptions onlyObjc).binaryPath = ascii "/b" := by
  change abspath (ascii "/") (ascii "/b") = ascii "/b"
  decide

theorem sampleReady (onlyObjc : Bool) :
    Ready sampleMachine sampleTools (sampleOptions onlyObjc) sampleBinary sampleWorld where
  documented := by
    apply documented_simulated
    intro path hmem
    have hlength := congrArg List.length (Set.mem_singleton_iff.mp hmem)
    simp [ascii] at hlength
  works := ⟨fun _ => rfl, fun _ _ _ => ⟨rfl, rfl⟩⟩
  binary := by
    rw [sample_path]
    exact ⟨by decide, by decide, by decide, by decide⟩
  ida _ := by
    have hne : idaExePath ≠ ascii "/b" := by decide
    simp [sampleWorld, hne]

theorem sampleThin : sampleTools.thin false sampleBinary = some sampleBinary := rfl

theorem sampleImage_eq : MachO.image? sampleBinary = some sampleImage := rfl

theorem sampleImage_wellFormed : sampleImage.WellFormed := by
  have hdumps : MachoDump.Dumps sampleBinary := by decide +kernel
  exact hdumps.wellFormed sampleImage_eq

section

variable {onlyObjc : Bool} {text : Bytes} {symbols : List (Symbol .uint32)}

theorem sampleRun (htext : sampleTools.rawSymbols (sampleOptions onlyObjc) sampleBinary = some text)
    (hsymbols : readRawSymbolData .uint32 text = .ok symbols)
    (hfit : tablesEnd symbols + 0x1000 ≤ 2 ^ 32) :
    ∃ n w', main sampleMachine (sampleOptions onlyObjc) sampleWorld = .ok n w' := by
  have hready := sampleReady onlyObjc
  have hmade : ∃ buf, symbolFile clearStack sampleTools (sampleOptions onlyObjc) sampleBinary =
      some buf :=
    (exists_symbolFile_iff sampleThin htext hsymbols sampleImage_eq sampleImage_wellFormed
        (by decide +kernel) (by decide +kernel)).mpr
      ⟨by decide +kernel, by decide +kernel, by decide +kernel, hfit⟩
  exact (main_refines hready.documented hready.works hready.binary
    hready.ida).exists_ok_iff.mpr hmade

end

theorem sample_idaText : sampleTools.rawSymbols (sampleOptions false) sampleBinary =
    some (printAllMethod Database.twoFunctions.visited) := rfl

theorem sample_idaSymbols :
    readRawSymbolData .uint32 (printAllMethod Database.twoFunctions.visited) =
      .ok (Database.twoFunctions.symbols .uint32) ∧
    outputSize (Database.twoFunctions.symbols .uint32) < 2 ^ 32 ∧
    tablesEnd (Database.twoFunctions.symbols .uint32) + 0x1000 ≤ 2 ^ 32 ∧
    roundUp 0x1000 0x5000 + outputSize (Database.twoFunctions.symbols .uint32) < 2 ^ 32 := by
  refine ⟨Database.readRawSymbolData_visited Database.twoFunctions_readable, ?_⟩
  rw [Database.symbols, Database.above_twoFunctions]
  decide +kernel

theorem sampleIdaRun : ∃ n w', main sampleMachine (sampleOptions false) sampleWorld = .ok n w' :=
  sampleRun sample_idaText sample_idaSymbols.1 sample_idaSymbols.2.2.1

theorem length_idaSample (hbuf : symbolFile clearStack sampleTools (sampleOptions false)
    sampleBinary = some buf) : buf.length = outputSize (Database.twoFunctions.symbols .uint32) :=
  length_symbolFile (sampleOptions false) sampleThin sample_idaText sample_idaSymbols.1 hbuf

theorem small_idaSample : Small clearStack sampleTools (sampleOptions false) sampleBinary :=
  fun _ hbuf => (length_idaSample hbuf).trans_lt sample_idaSymbols.2.1

theorem sample_output (onlyObjc : Bool) :
    outputSymbolPath sampleMachine.cwd (sampleOptions onlyObjc).binaryPath = ascii "/b.symbol" := by
  change outputSymbolPath (ascii "/") (ascii "/b") = ascii "/b.symbol"
  decide

theorem main_computes_symbolFile_sample :
    ∃ w' : World, main sampleMachine (sampleOptions false) sampleWorld = .ok 0 w' := by
  have hready := sampleReady false
  obtain ⟨buf, hbuf⟩ := (main_refines hready.documented hready.works hready.binary
    hready.ida).exists_ok_iff.mp sampleIdaRun
  obtain ⟨w', hrun, -⟩ := (main_computes_symbolFile hready).1 buf hbuf
  exact ⟨w', hrun⟩

end MainScript

end DSYMCreator
