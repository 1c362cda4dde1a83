import DSYMCreator.Properties.CreatedFile
import DSYMCreator.Properties.OutputPath
import DSYMCreator.Runs.Touches

/-!
# The files that the script changes

Whether a run returns or fails in one of its stages, it changes its own files under
`/tmp`, the files of IDA and the symbol file, and no other one.
-/
namespace DSYMCreator.MainScript

open Text Text.PosixPath Python Binary Runs

variable {m : Machine} {tools : Tools} {options : Options} {path command : Bytes} {arm64 : Bool}
  {changed : Set Bytes}

/-- The steps change files of `changed` only. -/
abbrev Leaves {α : Type} (changed : Set Bytes) (program : Script α) : Prop :=
  Touches World.files changed program

theorem leaves_readFile (path : Bytes) : Leaves changed (readFile path) := by
  refine touches_get.bind fun w => ?_
  cases w.files path with
  | some content => exact touches_pure content
  | none => exact touches_throw _

theorem leaves_writeFile {content : Bytes} (h : path ∈ changed) :
    Leaves changed (writeFile m path content) := by
  unfold writeFile
  cases m.host.openFails path with
  | some errno => exact touches_throw _
  | none => exact touches_modify fun w p hp => kept_setFile h p hp

theorem leaves_exitWith {α : Type} (line : Bytes) :
    Leaves changed (exitWith line : Script α) := by
  have hprint : Leaves changed (modify fun w => w.printErr line : Script Unit) :=
    touches_modify fun _ _ _ => rfl
  exact hprint.bind fun _ => touches_throw _

theorem leaves_python {α : Type} (result : Except Error α) : Leaves changed (python result) := by
  cases result with
  | ok a => exact touches_pure a
  | error e => exact touches_throw _

theorem leaves_runBash (hshell : shellPath ∈ changed)
    (h : ∀ w, ∀ p ∉ changed, (m.bash command w).world.files p = w.files p) :
    Leaves changed (runBash m command) := by
  unfold runBash
  refine (leaves_writeFile hshell).bind fun _ => (touches_modifyGet h).bind fun result => ?_
  cases checkOutput result.status result.output with
  | ok text => exact touches_pure text
  | error e => exact touches_throw e

theorem returns_extractThin (m : Machine) (path : Bytes) (arm64 : Bool) :
    Returns (extractThinIfBinaryIsFat m path arm64) fun a =>
      a = path ∨ a = freshBinaryPath arm64 := by
  have hexit (line : Bytes) : Returns (exitWith line : Script Bytes) fun a =>
      a = path ∨ a = freshBinaryPath arm64 := returns_bind fun _ => returns_throw _
  refine returns_bind fun content => ?_
  simp only
  refine .ite (.ite ?_ (.ite (returns_pure (.inl rfl)) (.ite (returns_pure (.inl rfl)) (hexit _))))
    (returns_throw _)
  exact returns_bind fun _ => returns_pure (.inr rfl)

theorem leaves_extractThin (hdoc : Documented m tools) (hplain : PlainWord path)
    (hshell : shellPath ∈ changed) (hfresh : freshBinaryPath arm64 ∈ changed) :
    Leaves changed (extractThinIfBinaryIsFat m path arm64) := by
  refine (leaves_readFile path).bind fun content => ?_
  simp only
  refine .ite (.ite ?_ (.ite (touches_pure _) (.ite (touches_pure _) (leaves_exitWith _))))
    (touches_throw _)
  refine (leaves_runBash hshell fun w p hp => ?_).bind fun _ => touches_pure _
  exact hdoc.lipo_files arm64 path w hplain p fun heq => hp (heq ▸ hfresh)

theorem leaves_extractRawSymbol (hdoc : Documented m tools) (hplain : PlainWord path)
    (hsub : symbolScratch tools path ⊆ changed) :
    Leaves changed (extractRawSymbol m options path) := by
  obtain ⟨hshell, hraw⟩ := mem_symbolScratch tools path
  refine .ite ?_ ?_
  · have hfiles := hdoc.objcSymbols_files options.arm64 path
    refine (leaves_runBash (hsub hshell) fun w p _ => congrFun (hfiles w hplain) p).bind fun _ => ?_
    refine (leaves_python _).bind fun _ => ?_
    exact (leaves_writeFile (hsub hraw)).bind fun _ => touches_pure _
  · have hida : Leaves changed makeSureIdaExists := by
      refine touches_get.bind fun w => ?_
      cases w.files idaExePath with
      | some _ => exact touches_pure _
      | none => exact leaves_exitWith _
    refine hida.bind fun _ => (leaves_runBash (hsub hshell) fun w p hp => ?_).bind fun _ =>
      touches_pure _
    exact hdoc.ida_files path w hplain p (fun heq => hp (heq ▸ hsub hraw))
      fun hmem => hp (hsub (.inr hmem))

theorem leaves_call (flags : Flags) (h : flags.output ∈ changed) :
    Leaves changed (call (DSYMCreator.main m.host flags)) := by
  intro w p hp
  have hstage := stage_main m.host flags w
  have hne : p ≠ flags.output := fun heq => hp (heq ▸ h)
  rw [endState_of_ok (call_run _ w)]
  generalize endState (DSYMCreator.main m.host flags) w = w' at *
  generalize status (DSYMCreator.main m.host flags w) = n at *
  cases hstage with
  | flags h line => rfl
  | build h hb => rfl
  | openFile h buf hb ho line => rfl
  | write h buf hb ho hw n hn line =>
    rw [World.files_printErr, World.files_written, Function.update_of_ne hne]
  | done h buf hb ho hw =>
    rw [World.files_printOut, World.files_written, Function.update_of_ne hne]

/-- Files under `/tmp` and of IDA. -/
def scratchFiles (tools : Tools) (cwd : Bytes) (options : Options) : Set Bytes :=
  {shellPath, rawSymbolPath, freshBinaryPath options.arm64} ∪
    (tools.idaFiles (abspath cwd options.binaryPath) ∪
      tools.idaFiles (freshBinaryPath options.arm64))

/-- The files of a run. -/
def changedFiles (tools : Tools) (cwd : Bytes) (options : Options) : Set Bytes :=
  scratchFiles tools cwd options ∪ {outputSymbolPath cwd options.binaryPath}

theorem symbolScratch_subset (tools : Tools) (cwd : Bytes)
    (h : path = abspath cwd options.binaryPath ∨ path = freshBinaryPath options.arm64) :
    symbolScratch tools path ⊆ scratchFiles tools cwd options := by
  rintro p ((rfl | rfl) | hida)
  · exact .inl (.inl rfl)
  · exact .inl (.inr (.inl rfl))
  · rcases h with rfl | rfl
    · exact .inr (.inl hida)
    · exact .inr (.inr hida)

/-- `main` up to the tool. -/
def prepare (m : Machine) (options : Options) : Script (Bytes × Bytes × PyInt) := do
  let binaryPath ← extractThinIfBinaryIsFat m (abspath m.cwd options.binaryPath) options.arm64
  let rawSymbol ← extractRawSymbol m options binaryPath
  let uuid ← extractUuidFromBinary m binaryPath
  let dwarfSectionsMinOffset ← calculateDwarfSectionsMinFileOffsetFromBinary m binaryPath
  return (rawSymbol, uuid, dwarfSectionsMinOffset)

theorem main_eq (m : Machine) (options : Options) :
    main m options = prepare m options >>= fun x =>
      dsymcreatorFormatSymbol m x.2.1 x.1 x.2.2 (outputSymbolPath m.cwd options.binaryPath)
        options.arm64 >>= fun _ => pure 0 := by
  unfold main prepare
  simp only [bind_assoc, pure_bind]

theorem leaves_prepare (hdoc : Documented m tools)
    (hplain : PlainWord (abspath m.cwd options.binaryPath)) :
    Leaves (scratchFiles tools m.cwd options) (prepare m options) := by
  have hshell : shellPath ∈ scratchFiles tools m.cwd options := .inl (.inl rfl)
  have hfresh : freshBinaryPath options.arm64 ∈ scratchFiles tools m.cwd options :=
    .inl (.inr (.inr rfl))
  refine (leaves_extractThin hdoc hplain hshell hfresh).bind_returns (returns_extractThin m _ _) ?_
  intro path hpath
  have hplain' : PlainWord path := by
    rcases hpath with rfl | rfl
    · exact hplain
    · exact plainWord_fresh _
  have hsub := symbolScratch_subset tools m.cwd hpath
  refine (leaves_extractRawSymbol hdoc hplain' hsub).bind fun raw => ?_
  refine Touches.bind (leaves_runBash hshell fun w p _ => ?_) fun uuid => ?_
  · exact congrFun (hdoc.uuid_files path w hplain') p
  refine Touches.bind (Touches.bind (leaves_runBash hshell fun w p _ => ?_) fun _ =>
    leaves_python _) fun offset => touches_pure _
  exact congrFun (hdoc.segments_files path w hplain') p

theorem leaves_main (hdoc : Documented m tools)
    (hplain : PlainWord (abspath m.cwd options.binaryPath)) :
    Leaves (changedFiles tools m.cwd options) (main m options) := by
  have houtput : outputSymbolPath m.cwd options.binaryPath ∈ changedFiles tools m.cwd options :=
    .inr rfl
  rw [main_eq]
  refine ((leaves_prepare hdoc hplain).mono Set.subset_union_left).bind fun x => ?_
  refine Touches.bind (Touches.bind (leaves_call _ houtput) fun retcode => ?_) fun _ =>
    touches_pure _
  exact .ite (touches_pure _) (leaves_exitWith _)

theorem ne_append_symbolSuffix (path : Bytes) : path ≠ path ++ symbolSuffix := by
  intro h
  have hlength := congrArg List.length h
  simp [symbolSuffix, ascii] at hlength

/-- Whether a run returns or fails, it changes files of its own only. The binary is not one of them,
unless it is in the place of a file under `/tmp`. The path is one plain word: what stands behind a
`;` in it would be a command of its own. -/
theorem main_changes (hdoc : Documented m tools) (hcwd : isabs m.cwd)
    (hplain : PlainWord (abspath m.cwd options.binaryPath)) (w : World) :
    (∀ path ∉ changedFiles tools m.cwd options,
        (endState (main m options) w).files path = w.files path) ∧
      (abspath m.cwd options.binaryPath ∉ ({shellPath, rawSymbolPath,
            freshBinaryPath options.arm64} ∪ tools.idaFiles (freshBinaryPath options.arm64)) →
        (endState (main m options) w).files (abspath m.cwd options.binaryPath) =
          w.files (abspath m.cwd options.binaryPath)) := by
  have hleaves := leaves_main hdoc hplain w
  refine ⟨hleaves, fun hbinary => hleaves _ ?_⟩
  rintro ((hscratch | hida | hida) | houtput)
  · exact hbinary (.inl hscratch)
  · exact hdoc.ida_keeps _ hida
  · exact hbinary (.inr hida)
  · rw [Set.mem_singleton_iff, outputSymbolPath_eq hcwd] at houtput
    exact ne_append_symbolSuffix _ houtput

/-- A run in this world fails. -/
def worldWithoutIda : World where
  files path := if path = ascii "/b" then some sampleBinary else none
  stdout := []
  stderr := []

theorem main_changes_sample :
    (endState (main sampleMachine (sampleOptions false)) worldWithoutIda).files (ascii "/b") =
      some sampleBinary := by
  have hpath := sample_path false
  have hplain : PlainWord (abspath sampleMachine.cwd (sampleOptions false).binaryPath) := by
    rw [hpath]
    decide
  have hchanges := (main_changes (sampleReady false).documented (by decide) hplain
    worldWithoutIda).2
  rw [hpath] at hchanges
  apply hchanges
  rintro ((hshell | hraw | hfresh) | hida)
  · exact absurd hshell (by decide)
  · exact absurd hraw (by decide)
  · exact absurd hfresh (by decide)
  · exact absurd (Set.mem_singleton_iff.mp hida) (by decide)

end DSYMCreator.MainScript
