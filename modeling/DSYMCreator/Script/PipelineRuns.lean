import DSYMCreator.Runs.Refines
import DSYMCreator.Script.Pipeline
import DSYMCreator.Tool.Stages

/-!
# The script runs the pipeline

Each function of the script refines its step of the pipeline: it returns exactly when
the step has a result, with this result, and few files have changed.
-/
namespace DSYMCreator.MainScript

open Text Text.PosixPath Python Binary Runs

variable {m : Machine} {tools : Tools} {options : Options} {w w' w'' : World}
  {command path thin binary : Bytes} {arm64 : Bool} {changed : Set Bytes}

/-- Other files are as they were. -/
def Kept (changed : Set Bytes) (w w' : World) : Prop := ∀ p ∉ changed, w'.files p = w.files p

theorem kept_refl (changed : Set Bytes) (w : World) : Kept changed w w := fun _ _ => rfl

theorem Kept.trans (h : Kept changed w w') (h' : Kept changed w' w'') : Kept changed w w'' :=
  fun p hp => (h' p hp).trans (h p hp)

theorem kept_of_files (h : w'.files = w.files) : Kept changed w w' := fun p _ => congrFun h p

theorem kept_setFile {content : Bytes} (h : path ∈ changed) :
    Kept changed w (w.setFile path content) := by
  intro p hp
  have hne : p ≠ path := fun heq => hp (heq ▸ h)
  rw [World.setFile_files, Function.update_of_ne hne]

/-- What `bash` makes of a command: the script writes it down before. -/
def Machine.result (m : Machine) (command : Bytes) (w : World) : BashResult :=
  m.bash command (w.setFile shellPath command)

theorem writeFile_run (hworks : m.host.Works) (path content : Bytes) (w : World) :
    writeFile m path content w = .ok () (w.setFile path content) := by
  unfold writeFile
  rw [hworks.opens]
  rfl

theorem runBash_of_status (hworks : m.host.Works) (h : (m.result command w).status = 0) :
    runBash m command w =
      .ok (DSYMCreator.runBash (m.result command w).output) (m.result command w).world := by
  unfold Machine.result at h ⊢
  unfold runBash checkOutput
  rw [bind_of_ok (writeFile_run hworks shellPath command w), modifyGet_bind, if_pos h]
  rfl

theorem runBash_of_failure (hworks : m.host.Works) (h : (m.result command w).status ≠ 0) :
    runBash m command w = .error .calledProcess (m.result command w).world := by
  unfold Machine.result at h ⊢
  unfold runBash checkOutput
  rw [bind_of_ok (writeFile_run hworks shellPath command w), modifyGet_bind, if_neg h]
  rfl

/-- A binary at a path that the commands can name and that is none of the script's own files. -/
structure Located (path binary : Bytes) (w : World) : Prop where
  plain : PlainWord path
  not_shell : path ≠ shellPath
  not_raw : path ≠ rawSymbolPath
  file : w.files path = some binary

theorem Located.kept (h : Located path binary w) (hkept : Kept changed w w') (hpath : path ∉ changed) :
    Located path binary w' :=
  ⟨h.plain, h.not_shell, h.not_raw, (hkept path hpath).trans h.file⟩

theorem Located.start (h : Located path binary w) (command : Bytes) :
    (w.setFile shellPath command).files path = some binary := by
  rw [World.setFile_files, Function.update_of_ne h.not_shell, h.file]

theorem kept_result (h : ∀ w, (m.bash command w).world.files = w.files) (w : World) :
    Kept {shellPath} w (m.result command w).world :=
  (kept_setFile (Set.mem_singleton shellPath)).trans (kept_of_files (h _))

theorem python_refines {α : Type} {result : Except Error α} {P : α → α → World → Prop}
    (hP : ∀ a, result = .ok a → P a a w) : Refines (python result) w result.toOption P := by
  cases result with
  | ok a => exact refines_some rfl (hP a rfl)
  | error e => exact refines_none (e := .python e) rfl

theorem extractUuid_refines (hdoc : Documented m tools) (hworks : m.host.Works)
    (hthin : Located path thin w) :
    Refines (extractUuidFromBinary m path) w (DSYMCreator.extractUuidFromBinary thin).toOption
      fun uuid text w' => text = uuid ∧ Kept {shellPath} w w' := by
  obtain ⟨hstatus, houtput⟩ := hdoc.uuid path _ thin hthin.plain (hthin.start (uuidCommand m path))
  have hkept := kept_result (hdoc.uuid_files path · hthin.plain) w
  change (m.result (uuidCommand m path) w).status = _ at hstatus
  change (m.result (uuidCommand m path) w).output = _ at houtput
  unfold extractUuidFromBinary DSYMCreator.extractUuidFromBinary checkOutput
  by_cases hfound : scrapeUuids (MachoDump.machoDump thin) = []
  · rw [if_pos hfound] at hstatus
    simp only [if_pos hfound, if_neg one_ne_zero]
    exact refines_none (runBash_of_failure hworks (by rw [hstatus]; exact one_ne_zero))
  · rw [if_neg hfound] at hstatus
    simp only [if_neg hfound, if_true]
    refine refines_some (runBash_of_status hworks hstatus) ⟨?_, hkept⟩
    rw [houtput]

theorem calculate_refines (hdoc : Documented m tools) (hworks : m.host.Works)
    (hthin : Located path thin w) :
    Refines (calculateDwarfSectionsMinFileOffsetFromBinary m path) w
      (DSYMCreator.calculateDwarfSectionsMinFileOffsetFromBinary thin).toOption
      fun offset n w' => n = offset ∧ Kept {shellPath} w w' := by
  obtain ⟨hstatus, houtput⟩ :=
    hdoc.segments path _ thin hthin.plain (hthin.start (segmentsCommand m path))
  have hkept := kept_result (hdoc.segments_files path · hthin.plain) w
  change (m.result (segmentsCommand m path) w).status = _ at hstatus
  change (m.result (segmentsCommand m path) w).output = _ at houtput
  have hrun := runBash_of_status hworks hstatus
  unfold calculateDwarfSectionsMinFileOffsetFromBinary
    DSYMCreator.calculateDwarfSectionsMinFileOffsetFromBinary
  rw [houtput] at hrun
  exact .after hrun (python_refines fun n _ => ⟨rfl, hkept⟩)

theorem exitWith_run {α : Type} (line : Bytes) (w : World) :
    (exitWith line : Script α) w = .error (.exit 1) (w.printErr line) := rfl

theorem readFile_run {content : Bytes} (h : w.files path = some content) :
    readFile path w = .ok content w := by
  unfold readFile
  rw [get_bind, h]
  rfl

theorem plainWord_fresh (arm64 : Bool) : PlainWord (freshBinaryPath arm64) := by
  cases arm64 <;> decide

theorem fresh_ne (arm64 : Bool) : freshBinaryPath arm64 ≠ shellPath ∧
    freshBinaryPath arm64 ≠ rawSymbolPath ∧ freshBinaryPath arm64 ≠ idaExePath := by
  cases arm64 <;> decide

/-- The thin binary is the binary itself or the file of `lipo`. -/
theorem extractThin_refines (hdoc : Documented m tools) (hworks : m.host.Works) (arm64 : Bool)
    (hbinary : Located path binary w) :
    Refines (extractThinIfBinaryIsFat m path arm64) w (tools.thin arm64 binary) fun thin a w' =>
      (a = path ∨ a = freshBinaryPath arm64) ∧ Located a thin w' ∧
        Kept {shellPath, freshBinaryPath arm64} w w' := by
  have hsame : path = path ∨ path = freshBinaryPath arm64 := .inl rfl
  unfold extractThinIfBinaryIsFat Tools.thin
  refine .after (readFile_run hbinary.file) ?_
  simp only
  split_ifs with hlength hfat hthin hthin64
  · obtain ⟨hne, hne', -⟩ := fresh_ne arm64
    have hlipo := hdoc.lipo arm64 path _ binary hbinary.plain
      (hbinary.start (lipoCommand arm64 path (freshBinaryPath arm64)))
    cases htools : tools.lipo (arch arm64) binary with
    | none =>
      rw [htools] at hlipo
      exact refines_none (bind_of_error (runBash_of_failure hworks hlipo))
    | some thin =>
      rw [htools] at hlipo
      obtain ⟨hstatus, hfile⟩ := hlipo
      refine .after (runBash_of_status hworks hstatus) (refines_pure ⟨.inr rfl, ?_, ?_⟩)
      · exact ⟨plainWord_fresh arm64, hne, hne', hfile⟩
      · have hstart : Kept {shellPath, freshBinaryPath arm64} w
            (w.setFile shellPath (lipoCommand arm64 path (freshBinaryPath arm64))) :=
          kept_setFile (Set.mem_insert _ _)
        refine hstart.trans fun p hp => hdoc.lipo_files arm64 path _ hbinary.plain p ?_
        exact fun heq => hp (heq ▸ Set.mem_insert_of_mem _ (Set.mem_singleton _))
  · exact refines_pure ⟨.inl rfl, hbinary, kept_refl _ w⟩
  · exact refines_pure ⟨.inl rfl, hbinary, kept_refl _ w⟩
  · exact refines_none (exitWith_run _ w)
  · exact refines_none (e := .struct) rfl

/-- The files of the step that gets the symbols. -/
def symbolScratch (tools : Tools) (path : Bytes) : Set Bytes :=
  {shellPath, rawSymbolPath} ∪ tools.idaFiles path

theorem mem_symbolScratch (tools : Tools) (path : Bytes) :
    shellPath ∈ symbolScratch tools path ∧ rawSymbolPath ∈ symbolScratch tools path :=
  ⟨.inl (Set.mem_insert _ _), .inl (Set.mem_insert_of_mem _ (Set.mem_singleton _))⟩

/-- What both ways to get the symbols promise. -/
def SymbolsWritten (tools : Tools) (path : Bytes) (w : World) (text a : Bytes) (w' : World) : Prop :=
  a = rawSymbolPath ∧ w'.files rawSymbolPath = some text ∧ Kept (symbolScratch tools path) w w'

theorem extractFromObjc_refines (hdoc : Documented m tools) (hworks : m.host.Works) (arm64 : Bool)
    (hthin : Located path thin w) :
    Refines (extractRawSymbolFromObjcSymbols m path arm64) w
      (DSYMCreator.extractRawSymbolFromObjcSymbols (tools.objcSymbols (arch arm64) thin)).toOption
      (SymbolsWritten tools path w) := by
  obtain ⟨hshell, hraw⟩ := mem_symbolScratch tools path
  obtain ⟨hstatus, houtput⟩ := hdoc.objcSymbols arm64 path _ thin hthin.plain
    (hthin.start (objcSymbolsCommand m arm64 path))
  have hfiles := hdoc.objcSymbols_files arm64 path
    (w.setFile shellPath (objcSymbolsCommand m arm64 path)) hthin.plain
  have hrun := runBash_of_status hworks hstatus
  change (m.result (objcSymbolsCommand m arm64 path) w).output = _ at houtput
  change (m.result (objcSymbolsCommand m arm64 path) w).world.files = _ at hfiles
  rw [houtput] at hrun
  unfold extractRawSymbolFromObjcSymbols DSYMCreator.extractRawSymbolFromObjcSymbols
  refine .after hrun ?_
  simp only
  cases hcollect : collectSymbols
      (DSYMCreator.runBash (unlines (sortLines (tools.objcSymbols (arch arm64) thin)))) with
  | error e => exact refines_none (e := .python e) rfl
  | ok symbols =>
    have hwrite := writeFile_run hworks rawSymbolPath (formatSymbols symbols)
    refine .after (a := symbols) rfl (.after (hwrite _) (refines_pure ⟨rfl, ?_, ?_⟩))
    · rw [World.setFile_files, Function.update_self]
    · exact ((kept_setFile hshell).trans (kept_of_files hfiles)).trans (kept_setFile hraw)

theorem extractFromIda_refines (hdoc : Documented m tools) (hworks : m.host.Works)
    (hthin : Located path thin w) :
    Refines (extractRawSymbolFromIda m path) w (some (printAllMethod (tools.ida thin).visited))
      (SymbolsWritten tools path w) := by
  obtain ⟨hshell, hraw⟩ := mem_symbolScratch tools path
  obtain ⟨hstatus, hfile⟩ := hdoc.ida path _ thin hthin.plain (hthin.start (idaCommand m path))
  have htext := hfile _ (Nat.lt_succ_self _)
  rw [Database.printMethods_eq _ (Nat.lt_succ_self _)] at htext
  unfold extractRawSymbolFromIda
  refine .after (runBash_of_status hworks hstatus) (refines_pure ⟨rfl, htext, ?_⟩)
  have hstart : Kept (symbolScratch tools path) w (w.setFile shellPath (idaCommand m path)) :=
    kept_setFile hshell
  refine hstart.trans fun p hp => hdoc.ida_files path _ hthin.plain p ?_ ?_
  · exact fun heq => hp (heq ▸ hraw)
  · exact fun hmem => hp (.inr hmem)

theorem makeSureIdaExists_run (h : w.files idaExePath ≠ none) : makeSureIdaExists w = .ok () w := by
  obtain ⟨content, hfile⟩ := Option.ne_none_iff_exists'.mp h
  unfold makeSureIdaExists
  rw [get_bind, hfile]
  rfl

theorem extractRawSymbol_refines (hdoc : Documented m tools) (hworks : m.host.Works)
    (hthin : Located path thin w)
    (hida : options.onlyObjc = false → w.files idaExePath ≠ none) :
    Refines (extractRawSymbol m options path) w (tools.rawSymbols options thin)
      (SymbolsWritten tools path w) := by
  unfold extractRawSymbol Tools.rawSymbols
  split_ifs with hobjc
  · exact extractFromObjc_refines hdoc hworks options.arm64 hthin
  · exact .after (makeSureIdaExists_run (hida (by simpa using hobjc)))
      (extractFromIda_refines hdoc hworks hthin)

/-- The flags of the tool. -/
def toolFlags (uuid : Bytes) (offset : PyInt) (output : Bytes) (arm64 : Bool) : Flags :=
  ⟨uuid, rawSymbolPath, output, offset.hex, arm64⟩

theorem call_run (program : Process ℕ) (w : World) :
    call program w = .ok (status (program w)) (endState program w) := by
  unfold call status endState
  cases program w with
  | ok n w' => rfl
  | error e w' => rfl

theorem builtBuffer_eq (host : Host) (uuid output : Bytes) (offset : PyInt) {text : Bytes}
    (h : w.files rawSymbolPath = some text) :
    builtBuffer host (toolFlags uuid offset output arm64) w.files =
      buildFile (arch arm64).addrType host.stack text uuid offset := by
  have htype : (toolFlags uuid offset output arm64).addrType = (arch arm64).addrType := by
    cases arm64 <;> rfl
  unfold builtBuffer buildFile
  rw [htype]
  simp only [toolFlags, h]
  rfl

theorem uuid_ne_nil {T : AddrType} {stack : StackContents} {text uuid : Bytes} {offset : PyInt}
    {buf : ByteBuffer} (h : buildFile T stack text uuid offset = some buf) : uuid ≠ [] := by
  obtain ⟨vmbase, -, h⟩ := Option.bind_eq_some_iff.mp h
  obtain ⟨symbols, -, h⟩ := Option.bind_eq_some_iff.mp h
  have hfits := ((Macho.dump_eq_ok_iff ..).mp (toOption_eq_some.mp h)).1
  rintro rfl
  exact absurd hfits.uuid (by decide)

/-- The tool is started with flags that say everything, so it fails exactly when the file cannot
be built. -/
theorem formatSymbol_refines (hworks : m.host.Works) {uuid output text : Bytes} {offset : PyInt}
    (houtput : output ≠ []) (htext : w.files rawSymbolPath = some text) :
    Refines (dsymcreatorFormatSymbol m uuid rawSymbolPath offset output arm64) w
      (buildFile (arch arm64).addrType m.host.stack text uuid offset) fun buf _ w' =>
        w'.files output = some (buf.take (writtenSize (arch arm64).addrType buf)) ∧
          Kept {output} w w' := by
  have hstage := stage_main m.host (toolFlags uuid offset output arm64) w
  have hcall := call_run (DSYMCreator.main m.host (toolFlags uuid offset output arm64)) w
  have hbuilt : builtBuffer m.host (toolFlags uuid offset output arm64) w.files =
      buildFile (arch arm64).addrType m.host.stack text uuid offset :=
    builtBuffer_eq m.host uuid output offset htext
  have htype : (toolFlags uuid offset output arm64).addrType = (arch arm64).addrType := by
    cases arm64 <;> rfl
  generalize endState (DSYMCreator.main m.host (toolFlags uuid offset output arm64)) w = w' at *
  generalize status (DSYMCreator.main m.host (toolFlags uuid offset output arm64) w) = n at *
  have hfail (hn : n ≠ some 0) : dsymcreatorFormatSymbol m uuid rawSymbolPath offset output
      arm64 w = .error (.exit 1) (w'.printErr (ascii "DSYMCreator run failed!")) := by
    unfold dsymcreatorFormatSymbol
    rw [← toolFlags, bind_of_ok hcall, if_neg hn, exitWith_run]
  have hreturn (hn : n = some 0) : dsymcreatorFormatSymbol m uuid rawSymbolPath offset output
      arm64 w = .ok () w' := by
    unfold dsymcreatorFormatSymbol
    rw [← toolFlags, bind_of_ok hcall, if_pos hn]
    rfl
  cases hstage with
  | flags h line =>
    cases hb : buildFile (arch arm64).addrType m.host.stack text uuid offset with
    | none => exact refines_none (hfail (by simp))
    | some buf =>
      exact absurd ⟨uuid_ne_nil hb, by simp [toolFlags, rawSymbolPath, ascii],
        by simp [toolFlags, PyInt.hex], houtput⟩ h
  | build h hb =>
    rw [← hbuilt, hb]
    exact refines_none (hfail (by simp))
  | openFile h buf hb ho line => exact absurd (hworks.opens _) ho
  | write h buf hb ho hw n hn line => exact absurd (hworks.writes _ _ _) hw
  | done h buf hb ho hw =>
    rw [← hbuilt, hb]
    refine refines_some (hreturn rfl) ⟨?_, fun p hp => ?_⟩
    · rw [World.files_printOut, World.files_written, htype]
      exact Function.update_self _ _ _
    · rw [World.files_printOut, World.files_written]
      exact Function.update_of_ne hp _ _

theorem outputSymbolPath_ne_nil (cwd p : Bytes) : outputSymbolPath cwd p ≠ [] := by
  have hne : ((split (abspath cwd p)).2 ++ ascii ".symbol") ≠ [] := by simp [ascii]
  unfold outputSymbolPath join
  simp only
  split_ifs
  · exact hne
  · exact fun h => hne (List.append_eq_nil_iff.mp h).2
  · simp

theorem Located.notMem_symbolScratch (hdoc : Documented m tools) (h : Located path binary w) :
    path ∉ symbolScratch tools path := by
  rintro ((hshell | hraw) | hida)
  · exact h.not_shell hshell
  · exact h.not_raw hraw
  · exact hdoc.ida_keeps path hida

/-- The script refines the pipeline: it returns exactly when the binary has a symbol file, and then
this is what the output holds. -/
theorem main_refines (hdoc : Documented m tools) (hworks : m.host.Works)
    (hbinary : Located (abspath m.cwd options.binaryPath) binary w)
    (hida : options.onlyObjc = false → w.files idaExePath ≠ none) :
    Refines (main m options) w (symbolFile m.host.stack tools options binary) fun buf status w' =>
      status = 0 ∧ w'.files (outputSymbolPath m.cwd options.binaryPath) =
        some (buf.take (writtenSize (arch options.arm64).addrType buf)) := by
  unfold main symbolFile thinSymbolFile
  refine (extractThin_refines hdoc hworks options.arm64 hbinary).bind ?_
  rintro thin path w₁ - ⟨hpath, hthin, hkept₁⟩
  refine (extractRawSymbol_refines hdoc hworks hthin ?_).bind ?_
  · intro hobjc
    have hkept := hkept₁ idaExePath (by
      rintro (hshell | hfresh)
      · exact absurd hshell (by decide)
      · exact (fresh_ne options.arm64).2.2 hfresh.symm)
    rw [hkept]
    exact hida hobjc
  rintro text raw w₂ - ⟨rfl, htext₂, hkept₂⟩
  have hthin₂ := hthin.kept hkept₂ (hthin.notMem_symbolScratch hdoc)
  refine (extractUuid_refines hdoc hworks hthin₂).bind ?_
  rintro uuid u w₃ - ⟨rfl, hkept₃⟩
  have hthin₃ := hthin₂.kept hkept₃ hthin.not_shell
  refine (calculate_refines hdoc hworks hthin₃).bind ?_
  rintro offset n w₄ - ⟨rfl, hkept₄⟩
  have hraw : rawSymbolPath ∉ ({shellPath} : Set Bytes) := by decide
  have htext₄ : w₄.files rawSymbolPath = some text := by
    rw [hkept₄ _ hraw, hkept₃ _ hraw, htext₂]
  refine (formatSymbol_refines hworks (outputSymbolPath_ne_nil _ _) htext₄).then_returns ?_
  rintro buf _ w₅ - ⟨hfile, -⟩
  exact ⟨rfl, hfile⟩

end DSYMCreator.MainScript
