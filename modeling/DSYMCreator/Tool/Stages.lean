import DSYMCreator.Runs.Touches
import DSYMCreator.Tool.Process

/-!
# The stages of a run

A run of the tool ends at its flags, while it builds the buffer, when it opens the
output file, when it writes to it, or behind that. Each stage comes with its exit
status and with what it leaves.
-/
namespace DSYMCreator

open Text Runs

/-- No flag is missing. -/
def Flags.Complete (flags : Flags) : Prop :=
  flags.uuid ≠ [] ∧ flags.rawIdaSymbol ≠ [] ∧ flags.dwarfSectionVmbase ≠ [] ∧ flags.output ≠ []

/-- The buffer that is built from the flags and the symbol file, if that ends well. -/
def builtBuffer (host : Host) (flags : Flags) (files : Bytes → Option Bytes) :
    Option ByteBuffer := do
  let vmbase ← (parseVmbase flags.addrType flags.dwarfSectionVmbase).toOption
  let content ← files flags.rawIdaSymbol
  let symbols ← (readRawSymbolData flags.addrType content).toOption
  (Macho.dump host.stack flags.uuid symbols vmbase).toOption

/-- How many bytes of the buffer are asked to be written: the length is cast. -/
def writtenSize (T : AddrType) (buf : ByteBuffer) : ℕ := buf.length % 2 ^ (8 * T.size)

/-- The cast loses nothing when the length fits the type. -/
theorem take_writtenSize_eq_iff (T : AddrType) (buf : ByteBuffer) :
    buf.take (writtenSize T buf) = buf ↔ buf.length < 2 ^ (8 * T.size) := by
  rw [List.take_eq_self_iff, writtenSize]
  constructor
  · intro h
    exact h.trans_lt (Nat.mod_lt _ (by positivity))
  · intro h
    rw [Nat.mod_eq_of_lt h]

/-- All of these bytes get to the opened file. -/
def Host.Writes (host : Host) (path : Bytes) (T : AddrType) (buf : ByteBuffer) : Prop :=
  host.seeks path 0 = true ∧ host.fwrite path (writtenSize T buf) = writtenSize T buf

/-- Files can be opened, and what is written gets there. -/
structure Host.Works (host : Host) : Prop where
  opens : ∀ path, host.openFails path = none
  writes : ∀ path T buf, host.Writes path T buf

variable {host : Host} {flags : Flags} {w w' : World} {buf : ByteBuffer}

theorem initGflagConfig_complete (h : flags.Complete) : initGflagConfig flags w = .ok () w := by
  obtain ⟨h₁, h₂, h₃, h₄⟩ := h
  unfold initGflagConfig
  rw [if_neg]
  · rfl
  · simp [h₁, h₂, h₃, h₄]

theorem initGflagConfig_incomplete (h : ¬ flags.Complete) :
    initGflagConfig flags w =
      .error (.exception ⟨.kParamInvalid, ascii "invalid param, please check the usage"⟩) w := by
  unfold Flags.Complete at h
  unfold initGflagConfig
  rw [if_pos]
  · rfl
  · simp only [List.length_eq_zero_iff]
    tauto

/-- The last two steps of the work. -/
def finish (host : Host) (flags : Flags) (buf : ByteBuffer) : Process Unit := do
  Util.write host flags.addrType flags.output 0 (BitVec.ofNat _ buf.length) buf
  modify fun w => w.printOut (ascii "create symbol file success: " ++ flags.output)

theorem readRawSymbolDataFromPath_run (T : AddrType) (path : StdString) (w : World) :
    readRawSymbolDataFromPath T path w =
      match w.files path with
      | none => .error .noSymbolFile w
      | some content =>
        match readRawSymbolData T content with
        | .ok symbols => .ok symbols w
        | .error e => .error (.symbolFile e) w := by
  unfold readRawSymbolDataFromPath
  rw [bind_of_ok (p := get) (a := w) rfl]
  cases w.files path with
  | none => rfl
  | some content => cases h : readRawSymbolData T content <;> simp only [h] <;> rfl

/-- Up to the write nothing changes: the work ends there without an exception of the program, or
it goes on with the buffer. -/
theorem mainWork_of_complete (host : Host) (w : World) (hc : flags.Complete) :
    match builtBuffer host flags w.files with
    | some buf => mainWork host flags w = finish host flags buf w
    | none => ∃ e, mainWork host flags w = .error e w ∧ ∀ x, e ≠ .exception x := by
  have hinit := initGflagConfig_complete (w := w) hc
  have hread := readRawSymbolDataFromPath_run flags.addrType flags.rawIdaSymbol w
  unfold mainWork
  rw [bind_of_ok hinit]
  unfold builtBuffer
  cases hvmbase : parseVmbase flags.addrType flags.dwarfSectionVmbase with
  | error e => exact ⟨.vmbase e, rfl, by simp⟩
  | ok vmbase =>
    simp only [Except.toOption, Option.bind_eq_bind, Option.bind_some, pure_bind]
    unfold dumpSymbolToFile
    cases hfile : w.files flags.rawIdaSymbol with
    | none =>
      rw [hfile] at hread
      exact ⟨.noSymbolFile, bind_of_error hread, by simp⟩
    | some content =>
      rw [hfile] at hread
      simp only [Option.bind_some]
      cases hsymbols : readRawSymbolData flags.addrType content with
      | error e =>
        simp only [hsymbols] at hread
        exact ⟨.symbolFile e, bind_of_error hread, by simp⟩
      | ok symbols =>
        simp only [hsymbols] at hread
        simp only [Option.bind_some]
        cases hdump : Macho.dump host.stack flags.uuid symbols vmbase with
        | error e =>
          refine ⟨.dump e, ?_, by simp⟩
          rw [bind_of_ok hread, hdump]
          rfl
        | ok buffer =>
          simp only
          rw [bind_of_ok hread, hdump]
          rfl

theorem finish_of_openFails (buf : ByteBuffer) (w : World) {errno : ℕ}
    (h : host.openFails flags.output = some errno) :
    ∃ d, finish host flags buf w = .error (.exception ⟨.kShouldNotOccur, d⟩) w := by
  refine ⟨ascii "write file failed, file: " ++ flags.output ++ ascii ", errno: " ++
    decimal errno, ?_⟩
  unfold finish Util.write
  rw [h]
  rfl

theorem writtenAt_start (bytes : Bytes) : Util.writtenAt [] 0 bytes = bytes := by
  unfold Util.writtenAt
  split_ifs with h
  · exact h.symm
  · simp

/-- The file that was opened, with so many bytes of the buffer. -/
def World.written (w : World) (file : StdString) (buf : ByteBuffer) (n : ℕ) : World :=
  (w.setFile file []).setFile file (buf.take n)

@[simp]
theorem World.setFile_files (w : World) (file content : Bytes) :
    (w.setFile file content).files = Function.update w.files file (some content) := rfl

theorem World.files_written (w : World) (file : StdString) (buf : ByteBuffer) (n : ℕ) :
    (w.written file buf n).files = Function.update w.files file (some (buf.take n)) := by
  unfold World.written
  simp

theorem World.files_printOut (w : World) (l : StdString) : (w.printOut l).files = w.files := rfl

theorem World.files_printErr (w : World) (l : StdString) : (w.printErr l).files = w.files := rfl

theorem toNat_zero (T : AddrType) : (0 : Addr T).toNat = 0 := BitVec.toNat_zero

theorem write_run (ho : host.openFails flags.output = none) :
    let size := writtenSize flags.addrType buf
    let run := Util.write host flags.addrType flags.output 0 (BitVec.ofNat _ buf.length) buf w
    (host.Writes flags.output flags.addrType buf → run = .ok () (w.written flags.output buf size)) ∧
      (¬ host.Writes flags.output flags.addrType buf → ∃ d, ∃ n ≤ size,
        run = .error (.exception ⟨.kWriteFailed, d⟩) (w.written flags.output buf n)) := by
  have hsize : (BitVec.ofNat (8 * flags.addrType.size) buf.length).toNat =
      writtenSize flags.addrType buf := BitVec.toNat_ofNat _ _
  have hopen : ((w.setFile flags.output []).files flags.output).getD [] = [] := by simp
  unfold Util.write
  rw [ho]
  simp only
  rw [modify_bind]
  unfold Util.writeTo
  rw [hsize, toNat_zero]
  by_cases hseek : host.seeks flags.output 0 = true
  · rw [if_pos hseek, modify_bind, hopen, writtenAt_start]
    constructor
    · rintro ⟨-, hwrote⟩
      rw [hwrote, if_pos rfl]
      rfl
    · intro hnot
      have hshort : writtenSize flags.addrType buf ≠
          host.fwrite flags.output (writtenSize flags.addrType buf) := fun h => hnot ⟨hseek, h.symm⟩
      rw [if_neg hshort]
      exact ⟨_, _, host.fwrite_le _ _, rfl⟩
  · have hnothing : w.written flags.output buf 0 = w.setFile flags.output [] := by
      simp [World.written, World.setFile]
    rw [if_neg hseek]
    refine ⟨fun h => absurd h.1 hseek, fun _ => ⟨?_, 0, Nat.zero_le _, ?_⟩⟩
    · exact ascii "write failed, from: " ++ decimal 0 ++ ascii ", size: " ++
        decimal (writtenSize flags.addrType buf)
    · rw [hnothing]
      rfl

theorem finish_of_writes (ho : host.openFails flags.output = none)
    (hw : host.Writes flags.output flags.addrType buf) :
    finish host flags buf w = .ok ()
      ((w.written flags.output buf (writtenSize flags.addrType buf)).printOut
        (ascii "create symbol file success: " ++ flags.output)) := by
  unfold finish
  rw [bind_of_ok ((write_run ho).1 hw)]
  rfl

theorem finish_of_short (ho : host.openFails flags.output = none)
    (hw : ¬ host.Writes flags.output flags.addrType buf) :
    ∃ d, ∃ n ≤ writtenSize flags.addrType buf, finish host flags buf w =
      .error (.exception ⟨.kWriteFailed, d⟩) (w.written flags.output buf n) := by
  obtain ⟨d, n, hn, hrun⟩ := (write_run (w := w) ho).2 hw
  exact ⟨d, n, hn, bind_of_error hrun⟩

/-- The end of the work is the end of the run, unless an exception of the program is handled. -/
theorem main_of_ok (h : mainWork host flags w = .ok () w') : main host flags w = .ok 0 w' := by
  unfold main
  apply tryCatch_of_ok
  rw [bind_of_ok h]
  rfl

theorem main_of_exception {e : Exception} (h : mainWork host flags w = .error (.exception e) w') :
    main host flags w = .ok e.code.toInt (w'.printErr (buildFailedResult e)) := by
  unfold main
  rw [tryCatch_of_error (bind_of_error h)]
  rfl

theorem main_of_uncaught {e : Thrown} (h : mainWork host flags w = .error e w')
    (he : ∀ x, e ≠ .exception x) : main host flags w = .error e w' := by
  unfold main
  rw [tryCatch_of_error (bind_of_error h)]
  cases e with
  | exception x => exact absurd rfl (he x)
  | vmbase _ => rfl
  | noSymbolFile => rfl
  | symbolFile _ => rfl
  | dump _ => rfl

/-- The stages of a run, each with its exit status, and with the files and the outputs that it
leaves. No status means that an exception is not handled. -/
inductive Stage (host : Host) (flags : Flags) (w : World) : Option ℕ → World → Prop
  | flags (h : ¬ flags.Complete) (line : StdString) : Stage host flags w (some 2) (w.printErr line)
  | build (h : flags.Complete) (hb : builtBuffer host flags w.files = none) :
    Stage host flags w none w
  | openFile (h : flags.Complete) (buf : ByteBuffer)
    (hb : builtBuffer host flags w.files = some buf)
    (ho : host.openFails flags.output ≠ none) (line : StdString) :
    Stage host flags w (some 1) (w.printErr line)
  | write (h : flags.Complete) (buf : ByteBuffer)
    (hb : builtBuffer host flags w.files = some buf)
    (ho : host.openFails flags.output = none)
    (hw : ¬ host.Writes flags.output flags.addrType buf) (n : ℕ)
    (hn : n ≤ writtenSize flags.addrType buf) (line : StdString) :
    Stage host flags w (some 4) ((w.written flags.output buf n).printErr line)
  | done (h : flags.Complete) (buf : ByteBuffer)
    (hb : builtBuffer host flags w.files = some buf)
    (ho : host.openFails flags.output = none)
    (hw : host.Writes flags.output flags.addrType buf) :
    Stage host flags w (some 0)
      ((w.written flags.output buf (writtenSize flags.addrType buf)).printOut
        (ascii "create symbol file success: " ++ flags.output))

/-- How a run ended. -/
def status : EStateM.Result Thrown World ℕ → Option ℕ
  | .ok n _ => some n
  | .error _ _ => none

theorem stage_main (host : Host) (flags : Flags) (w : World) :
    Stage host flags w (status (main host flags w)) (endState (main host flags) w) := by
  by_cases hc : flags.Complete
  · have hwork := mainWork_of_complete host w hc
    cases hb : builtBuffer host flags w.files with
    | none =>
      rw [hb] at hwork
      obtain ⟨e, hrun, he⟩ := hwork
      have hmain := main_of_uncaught hrun he
      rw [endState_of_error hmain, hmain]
      exact .build hc hb
    | some buf =>
      rw [hb] at hwork
      simp only at hwork
      cases ho : host.openFails flags.output with
      | some errno =>
        obtain ⟨d, hfin⟩ := finish_of_openFails buf w ho
        have hmain := main_of_exception (hwork.trans hfin)
        rw [endState_of_ok hmain, hmain]
        exact .openFile hc buf hb (by simp [ho]) _
      | none =>
        by_cases hw : host.Writes flags.output flags.addrType buf
        · have hmain := main_of_ok (hwork.trans (finish_of_writes ho hw))
          rw [endState_of_ok hmain, hmain]
          exact .done hc buf hb ho hw
        · obtain ⟨d, n, hn, hfin⟩ := finish_of_short (w := w) ho hw
          have hmain := main_of_exception (hwork.trans hfin)
          rw [endState_of_ok hmain, hmain]
          exact .write hc buf hb ho hw n hn _
  · have hinit := initGflagConfig_incomplete (w := w) hc
    have hwork : mainWork host flags w = .error (.exception ⟨.kParamInvalid, _⟩) w :=
      bind_of_error hinit
    have hmain := main_of_exception hwork
    rw [endState_of_ok hmain, hmain]
    exact .flags hc _

end DSYMCreator
