import DSYMCreator.Properties.ScriptFiles

/-!
# Runs that fail and runs after runs

All runs share their files under `/tmp`, and a run that fails leaves them as they are
at that moment. A symbol file is made at one stroke all the same, and what earlier
runs left is not seen by a later one.
-/
namespace DSYMCreator.MainScript

open Text Text.PosixPath Python Runs

variable {m : Machine} {tools : Tools} {options : Options} {w w' : World} {binary : Bytes}
  {arm64 : Bool}

/-- Where files can be written, the tool changes none before its last exception. -/
theorem raisesWithin_format (hworks : m.host.Works) (uuid raw output : Bytes) (offset : PyInt)
    (scratch : Set Bytes) : RaisesWithin World.files scratch
      (dsymcreatorFormatSymbol m uuid raw offset output arm64) := by
  intro w e w' hrun p _
  unfold dsymcreatorFormatSymbol at hrun
  rw [bind_of_ok (call_run _ w)] at hrun
  have hstage := stage_main m.host ⟨uuid, raw, output, offset.hex, arm64⟩ w
  generalize endState (DSYMCreator.main m.host ⟨uuid, raw, output, offset.hex, arm64⟩) w = w₁ at *
  generalize status (DSYMCreator.main m.host ⟨uuid, raw, output, offset.hex, arm64⟩ w) = n at *
  cases hstage with
  | flags h line =>
    cases hrun
    rfl
  | build h hb =>
    cases hrun
    rfl
  | openFile h buf hb ho line => exact absurd (hworks.opens _) ho
  | write h buf hb ho hw n hn line => exact absurd (hworks.writes _ _ _) hw
  | done h buf hb ho hw => cases hrun

theorem output_notMem_scratch (hcwd : isabs m.cwd)
    (hida : outputSymbolPath m.cwd options.binaryPath ∉
      tools.idaFiles (abspath m.cwd options.binaryPath) ∪
        tools.idaFiles (freshBinaryPath options.arm64)) :
    outputSymbolPath m.cwd options.binaryPath ∉ scratchFiles tools m.cwd options := by
  have hsuffix : symbolSuffix <:+ outputSymbolPath m.cwd options.binaryPath := by
    rw [outputSymbolPath_eq hcwd]
    exact List.suffix_append _ _
  rintro ((hshell | hraw | hfresh) | hmem)
  · rw [hshell] at hsuffix
    exact absurd hsuffix (by decide)
  · rw [hraw] at hsuffix
    exact absurd hsuffix (by decide)
  · rw [Set.mem_singleton_iff.mp hfresh] at hsuffix
    cases harm : options.arm64 with
    | false =>
      rw [harm] at hsuffix
      exact absurd hsuffix (by decide)
    | true =>
      rw [harm] at hsuffix
      exact absurd hsuffix (by decide)
  · exact hida hmem

/-- A run that fails leaves the place of the symbol file as it was: there is no part of a file, and
the file of an earlier run is still there. That is so when files can be written, the path is one
plain word, and IDA has no file of its own in that place. -/
theorem failed_run_keeps (hdoc : Documented m tools) (hworks : m.host.Works) (hcwd : isabs m.cwd)
    (hplain : PlainWord (abspath m.cwd options.binaryPath))
    (hida : outputSymbolPath m.cwd options.binaryPath ∉
      tools.idaFiles (abspath m.cwd options.binaryPath) ∪
        tools.idaFiles (freshBinaryPath options.arm64))
    {e : ScriptError} (hrun : main m options w = .error e w') :
    w'.files (outputSymbolPath m.cwd options.binaryPath) =
        w.files (outputSymbolPath m.cwd options.binaryPath) ∧
      ∀ path ∉ scratchFiles tools m.cwd options, w'.files path = w.files path := by
  have hraises : RaisesWithin World.files (scratchFiles tools m.cwd options) (main m options) := by
    rw [main_eq]
    refine (leaves_prepare hdoc hplain).bind_raisesWithin fun x => ?_
    exact (raisesWithin_format hworks _ _ _ _ _).bind_pure
  exact ⟨hraises w e w' hrun _ (output_notMem_scratch hcwd hida), hraises w e w' hrun⟩

/-- A run in this world fails, and there is a symbol file of an earlier run. -/
def worldWithOldSymbol : World := worldWithoutIda.setFile (ascii "/b.symbol") (ascii "old")

theorem failed_run_keeps_sample : ∃ e w', main sampleMachine (sampleOptions false)
    worldWithOldSymbol = .error e w' ∧ w'.files (ascii "/b.symbol") = some (ascii "old") := by
  have hpath := sample_path false
  have hplain : PlainWord (abspath sampleMachine.cwd (sampleOptions false).binaryPath) := by
    rw [hpath]
    decide
  have hida : outputSymbolPath sampleMachine.cwd (sampleOptions false).binaryPath ∉
      sampleTools.idaFiles (abspath sampleMachine.cwd (sampleOptions false).binaryPath) ∪
        sampleTools.idaFiles (freshBinaryPath false) := by
    rw [hpath, sample_output]
    rintro (hmem | hmem)
    · exact absurd (Set.mem_singleton_iff.mp hmem) (by decide)
    · exact absurd (Set.mem_singleton_iff.mp hmem) (by decide)
  have hrun : main sampleMachine (sampleOptions false) worldWithOldSymbol = .error (.exit 1)
      (worldWithOldSymbol.printErr (ascii "IDA Pro is not installed at " ++ idaExePath ++
        ascii ", please install first")) := rfl
  have hkeeps := (failed_run_keeps (sampleReady false).documented (sampleReady false).works
    (by decide) hplain hida hrun).1
  rw [sample_output] at hkeeps
  exact ⟨_, _, hrun, hkeeps⟩

/-! ## Runs after runs -/

/-- What a list of runs leaves, of which any may fail. -/
def runs (m : Machine) (history : List Options) (w : World) : World :=
  history.foldl (fun w options => endState (main m options) w) w

theorem files_runs (hdoc : Documented m tools) {history : List Options} {path : Bytes}
    (h : ∀ o ∈ history, PlainWord (abspath m.cwd o.binaryPath) ∧
      path ∉ changedFiles tools m.cwd o) (w : World) :
    (runs m history w).files path = w.files path :=
  view_foldl (fun o ho => ⟨_, leaves_main hdoc (h o ho).1, (h o ho).2⟩) w

/-- What stood before the run is not changed by the runs of others. -/
structure Undisturbed (m : Machine) (tools : Tools) (options o : Options) : Prop where
  plain : PlainWord (abspath m.cwd o.binaryPath)
  binary : abspath m.cwd options.binaryPath ∉ changedFiles tools m.cwd o
  ida : options.onlyObjc = false → idaExePath ∉ changedFiles tools m.cwd o

theorem ready_runs {history : List Options} (h : Ready m tools options binary w)
    (hhistory : ∀ o ∈ history, Undisturbed m tools options o) :
    Ready m tools options binary (runs m history w) where
  documented := h.documented
  works := h.works
  binary := by
    refine ⟨h.binary.plain, h.binary.not_shell, h.binary.not_raw, ?_⟩
    rw [files_runs h.documented fun o ho => ⟨(hhistory o ho).plain, (hhistory o ho).binary⟩]
    exact h.binary.file
  ida hobjc := by
    rw [files_runs h.documented fun o ho => ⟨(hhistory o ho).plain, (hhistory o ho).ida hobjc⟩]
    exact h.ida hobjc

/-- After any runs of the script that leave this binary and IDA alone, in either mode, returned or
failed, a run that could start at once does what it would have done then: it returns in the same
cases, with the same symbol file. -/
theorem main_after_runs {history : List Options} (h : Ready m tools options binary w)
    (hhistory : ∀ o ∈ history, Undisturbed m tools options o) :
    ((∃ n u, main m options (runs m history w) = .ok n u) ↔ ∃ n u, main m options w = .ok n u) ∧
      ∀ n u n' u', main m options w = .ok n u → main m options (runs m history w) = .ok n' u' →
        n = n' ∧ u.files (outputSymbolPath m.cwd options.binaryPath) =
          u'.files (outputSymbolPath m.cwd options.binaryPath) := by
  have hafter := ready_runs h hhistory
  have hfirst := main_refines h.documented h.works h.binary h.ida
  have hlater := main_refines hafter.documented hafter.works hafter.binary hafter.ida
  refine ⟨hlater.exists_ok_iff.trans hfirst.exists_ok_iff.symm, ?_⟩
  intro n u n' u' hrun hrun'
  obtain ⟨buf, hbuf, hn, hfile⟩ := hfirst.of_ok hrun
  obtain ⟨buf', hbuf', hn', hfile'⟩ := hlater.of_ok hrun'
  obtain rfl : buf = buf' := Option.some.inj (hbuf.symm.trans hbuf')
  exact ⟨hn.trans hn'.symm, hfile.trans hfile'.symm⟩

theorem mem_changedFiles_sample {onlyObjc : Bool} {path : Bytes}
    (h : path ∈ changedFiles sampleTools sampleMachine.cwd (sampleOptions onlyObjc)) :
    path ∈ [shellPath, rawSymbolPath, freshBinaryPath false, ascii "/b.idb",
      freshBinaryPath false ++ ascii ".idb", ascii "/b.symbol"] := by
  unfold changedFiles scratchFiles at h
  rw [sample_path, sample_output] at h
  have hnames : (path = shellPath ∨ path = rawSymbolPath ∨ path = freshBinaryPath false) ∨
      path = ascii "/b.idb" ∨ path = freshBinaryPath false ++ ascii ".idb" ∨
      path = ascii "/b.symbol" := by
    rcases h with (hown | hida | hida) | houtput
    · exact .inl hown
    · exact .inr (.inl hida)
    · exact .inr (.inr (.inl hida))
    · exact .inr (.inr (.inr houtput))
  simpa [or_assoc] using hnames

theorem undisturbed_sample (onlyObjc : Bool) :
    Undisturbed sampleMachine sampleTools (sampleOptions false) (sampleOptions onlyObjc) where
  plain := by
    rw [sample_path]
    decide
  binary := by
    rw [sample_path]
    exact fun hmem => absurd (mem_changedFiles_sample hmem) (by decide)
  ida _ hmem := absurd (mem_changedFiles_sample hmem) (by decide)

theorem main_after_runs_sample : ∃ n w', main sampleMachine (sampleOptions false)
    (runs sampleMachine [sampleOptions true, sampleOptions false] sampleWorld) = .ok n w' := by
  refine (main_after_runs (sampleReady false) fun o ho => ?_).1.mpr sampleIdaRun
  simp only [List.mem_cons, List.not_mem_nil, or_false] at ho
  rcases ho with rfl | rfl
  · exact undisturbed_sample true
  · exact undisturbed_sample false

end DSYMCreator.MainScript
