import DSYMCreator.Tool.Stages

/-!
# What the exit status says

The status tells which stage failed: the flags, opening the output file, or writing
to it. What no handler catches ends the run before the output file is opened, so
that all files are as they were.
-/
namespace DSYMCreator

open Runs

/-- Each exit status belongs to one stage, and there are no others. Status 0 says that `fwrite` took
every byte that it was asked for, as many as the length modulo `2 ^ w`; what the flush at exit does
is not checked. -/
theorem main_status_iff (host : Host) (flags : Flags) (w : World) :
    (status (main host flags w) = some 2 ↔ ¬ flags.Complete) ∧
      (status (main host flags w) = none ↔
        flags.Complete ∧ builtBuffer host flags w.files = none) ∧
      (status (main host flags w) = some 1 ↔
        flags.Complete ∧ ∃ buf, builtBuffer host flags w.files = some buf ∧
          host.openFails flags.output ≠ none) ∧
      (status (main host flags w) = some 4 ↔
        flags.Complete ∧ ∃ buf, builtBuffer host flags w.files = some buf ∧
          host.openFails flags.output = none ∧ ¬ host.Writes flags.output flags.addrType buf) ∧
      (status (main host flags w) = some 0 ↔
        flags.Complete ∧ ∃ buf, builtBuffer host flags w.files = some buf ∧
          host.openFails flags.output = none ∧ host.Writes flags.output flags.addrType buf) ∧
      ∀ n, status (main host flags w) = some n → n ∈ [0, 1, 2, 4] := by
  have hstage := stage_main host flags w
  generalize endState (main host flags) w = w' at hstage
  generalize status (main host flags w) = s at hstage ⊢
  cases hstage with
  | flags h line => simp [h]
  | build h hb => simp [h, hb]
  | openFile h buf hb ho line => simp [h, hb, ho]
  | write h buf hb ho hw n hn line => simp [h, hb, ho, hw]
  | done h buf hb ho hw => simp [h, hb, ho, hw]

/-- What a run leaves in the files, with the bytes that `fwrite` took: no file but the output is
changed, and that one only when it could be opened; then it holds a part of the buffer. After a
success this is the buffer up to its length modulo `2 ^ w`, the whole one exactly if its length fits
the type. -/
theorem main_files (host : Host) (flags : Flags) (w : World) :
    let w' := endState (main host flags) w
    (∀ path, path ≠ flags.output → w'.files path = w.files path) ∧
      (status (main host flags w) ≠ some 0 → status (main host flags w) ≠ some 4 →
        w'.files = w.files) ∧
      (status (main host flags w) = some 4 → ∃ buf, builtBuffer host flags w.files = some buf ∧
        ∃ n ≤ writtenSize flags.addrType buf, w'.files flags.output = some (buf.take n)) ∧
      (status (main host flags w) = some 0 → ∃ buf, builtBuffer host flags w.files = some buf ∧
        w'.files flags.output = some (buf.take (writtenSize flags.addrType buf)) ∧
        (w'.files flags.output = some buf ↔ buf.length < 2 ^ (8 * flags.addrType.size))) := by
  intro w'
  have hstage : Stage host flags w (status (main host flags w)) w' := stage_main host flags w
  clear_value w'
  generalize status (main host flags w) = s at hstage ⊢
  cases hstage with
  | flags h line => simp [World.files_printErr]
  | build h hb => simp
  | openFile h buf hb ho line => simp [World.files_printErr]
  | write h buf hb ho hw n hn line =>
    simp only [World.files_printErr, World.files_written]
    refine ⟨fun path hpath => Function.update_of_ne hpath _ _, by simp,
      fun _ => ⟨buf, hb, n, hn, ?_⟩, by simp⟩
    exact Function.update_self _ _ _
  | done h buf hb ho hw =>
    simp only [World.files_printOut, World.files_written]
    refine ⟨fun path hpath => Function.update_of_ne hpath _ _, by simp, by simp,
      fun _ => ⟨buf, hb, Function.update_self _ _ _, ?_⟩⟩
    rw [Function.update_self, Option.some_inj, take_writtenSize_eq_iff]

end DSYMCreator
