import DSYMCreator.Properties.CreatedFile
import DSYMCreator.Properties.IdaSymbols

/-!
# Runs with IDA

With the symbol file of such a run a debugger finds for an address the functions of
the database around it, by ascending start. Only a function at address 0 is missing.
-/
namespace DSYMCreator

open Text NextElement Macho DebugFile

variable {T : AddrType}

theorem Database.nul_notMem_symbols {db : Database} (h : db.Readable T) :
    ∀ s ∈ db.symbols T, 0 ∉ s.name := by
  intro s hs
  obtain ⟨a, ha, rfl⟩ := List.mem_map.mp hs
  exact (h.name a (mem_above.mp ha).1).no_nul

theorem symbolicate_database {db : Database} (h : db.Readable T) {file : ByteBuffer}
    (hfile : functions file = some ((db.symbols T).map debugFunction)) (pc : ℕ) :
    symbolicate file pc = some (((above db.functions 0).filter fun a =>
      a ≤ pc ∧ pc < db.functionEnd a).map db.functionName) := by
  have hcomp : (Function.contains pc ∘ debugFunction) ∘ db.symbol T =
      fun a => (debugFunction (db.symbol T a)).contains pc := rfl
  have hsame : (above db.functions 0).filter
      (fun a => (debugFunction (db.symbol T a)).contains pc) =
        (above db.functions 0).filter fun a => a ≤ pc ∧ pc < db.functionEnd a := by
    apply List.filter_congr
    intro a ha
    have hmem := (mem_above.mp ha).1
    have hstart := Nat.mod_eq_of_lt (h.start a hmem)
    have hfin := Nat.mod_eq_of_lt (h.fin a hmem)
    simp [Function.contains, debugFunction, Database.symbol, BitVec.toNat_ofNat, hstart, hfin]
  unfold symbolicate
  rw [hfile, Option.map_some]
  unfold Database.symbols
  rw [List.filter_map, List.filter_map, hcomp, hsame]
  simp only [List.map_map]
  rfl

namespace MainScript

open Text.PosixPath Runs

variable {m : Machine} {tools : Tools} {options : Options} {w w' : World} {binary thin : Bytes}
  {n : ℕ}

/-- Whenever a run with IDA returns on a readable database, a debugger finds with the symbol file
exactly the functions of the database that an address is in. -/
theorem idaRun_symbolicates (h : Ready m tools options binary w)
    (hsmall : Small m.host.stack tools options binary) (hobjc : options.onlyObjc = false)
    (hthin : tools.thin options.arm64 binary = some thin)
    (hreadable : (tools.ida thin).Readable options.addrType) (hrun : main m options w = .ok n w') :
    ∃ file, w'.files (outputSymbolPath m.cwd options.binaryPath) = some file ∧
      ∀ pc, symbolicate file pc = some (((above (tools.ida thin).functions 0).filter fun a =>
        a ≤ pc ∧ pc < (tools.ida thin).functionEnd a).map (tools.ida thin).functionName) := by
  obtain ⟨thin', symbols, file, hthin', -, hfile, ⟨text, htext, hsymbols⟩, hsize, himage⟩ :=
    created_of_run h hsmall hrun
  rw [hthin] at hthin'
  obtain rfl : thin = thin' := Option.some.inj hthin'
  obtain ⟨uuid, -, vmbase, -, -, -, hfits, himage⟩ := himage
  have hvisited : text = printAllMethod (tools.ida thin).visited := by
    unfold Tools.rawSymbols at htext
    rw [if_neg (by simp [hobjc])] at htext
    exact (Option.some.inj htext).symm
  have hread := Database.readRawSymbolData_visited hreadable
  rw [← hvisited, hsymbols] at hread
  obtain rfl : symbols = (tools.ida thin).symbols options.addrType := Except.ok.inj hread
  refine ⟨file, hfile, fun pc => symbolicate_database hreadable ?_ pc⟩
  rw [himage]
  exact functions_image hfits (Database.nul_notMem_symbols hreadable) hsize

theorem idaRun_symbolicates_sample :
    ∃ n w' file, main sampleMachine (sampleOptions false) sampleWorld = .ok n w' ∧
      w'.files (ascii "/b.symbol") = some file ∧
      symbolicate file 0x8010 = some [ascii "start"] ∧ symbolicate file 0x8800 = some [] := by
  obtain ⟨n, w', hrun⟩ := sampleIdaRun
  obtain ⟨file, hfile, hfind⟩ := idaRun_symbolicates (sampleReady false) small_idaSample rfl
    sampleThin Database.twoFunctions_readable hrun
  have hvisible (pc : ℕ) := hfind pc
  change ∀ pc, symbolicate file pc = some (((above Database.twoFunctions.functions 0).filter _).map
    Database.twoFunctions.functionName) at hvisible
  rw [sample_output] at hfile
  refine ⟨n, w', file, hrun, hfile, ?_, ?_⟩
  · rw [hvisible, Database.above_twoFunctions]
    rfl
  · rw [hvisible, Database.above_twoFunctions]
    rfl

end MainScript

end DSYMCreator
