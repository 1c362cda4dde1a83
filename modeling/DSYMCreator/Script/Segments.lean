import DSYMCreator.Script.Python

/-!
# The end of the program's segments

`calculate_dwarf_sections_min_file_offset_from_binary` reads one segment a line,
an address and a size in decimal, and returns the greatest end, at least
`0x1000`. An empty text has one empty line, which is not a pair of numbers.
-/
namespace DSYMCreator

open Text Python

/-- `vmaddr, vmsize = line.split()`, both converted with `int`. -/
def readSegment (line : Bytes) : Except Error (PyInt × PyInt) := do
  let (vmaddr, vmsize) ← unpack2 (words line)
  return (← int 10 vmaddr, ← int 10 vmsize)

/-- One iteration over `result.split('\n')`. -/
def addSegment (dwarfMinOffset : PyInt) (line : Bytes) : Except Error PyInt := do
  let (vmaddr, vmsize) ← readSegment line
  let offset := vmaddr + vmsize
  return if dwarfMinOffset.value < offset.value then offset else dwarfMinOffset

/-- The part of the function behind the shell pipeline, whose output is `result`. -/
def calculateDwarfSectionsMinFileOffset (result : Bytes) : Except Error PyInt :=
  (result.splitOn newline).foldlM addSegment (.ofValue 0x1000)

/-- The pairs that the function reads from a text. -/
def segmentsOf (result : Bytes) : Except Error (List (PyInt × PyInt)) :=
  (result.splitOn newline).mapM readSegment

/-- The greatest end of the segments, and at least `top`. -/
def segmentsEnd (top : ℤ) (segments : List (PyInt × PyInt)) : ℤ :=
  segments.foldl (fun top s => max top (s.1.value + s.2.value)) top

theorem le_segmentsEnd (top : ℤ) (segments : List (PyInt × PyInt)) :
    top ≤ segmentsEnd top segments := by
  induction segments generalizing top with
  | nil => exact le_rfl
  | cons s segments ih => exact (le_max_left _ _).trans (ih _)

theorem end_le_segmentsEnd (top : ℤ) {segments : List (PyInt × PyInt)} {s : PyInt × PyInt}
    (hs : s ∈ segments) : s.1.value + s.2.value ≤ segmentsEnd top segments := by
  induction segments generalizing top with
  | nil => cases hs
  | cons t segments ih =>
    rcases List.mem_cons.mp hs with rfl | hs
    · exact (le_max_right _ _).trans (le_segmentsEnd _ _)
    · exact ih _ hs

theorem foldlM_addSegment {lines : List Bytes} {segments : List (PyInt × PyInt)}
    (h : lines.mapM readSegment = .ok segments) (minOffset : PyInt) :
    ∃ n, lines.foldlM addSegment minOffset = .ok n ∧
      n.value = segmentsEnd minOffset.value segments := by
  induction lines generalizing segments minOffset with
  | nil =>
    rw [List.mapM_nil] at h
    cases h
    exact ⟨minOffset, rfl, rfl⟩
  | cons line lines ih =>
    rw [List.mapM_cons] at h
    cases hline : readSegment line with
    | error e =>
      rw [hline] at h
      cases h
    | ok s =>
      cases hlines : lines.mapM readSegment with
      | error e =>
        rw [hline, hlines] at h
        cases h
      | ok rest =>
        rw [hline, hlines] at h
        cases h
        have hstep : addSegment minOffset line =
            .ok (if minOffset.value < (s.1 + s.2).value then s.1 + s.2 else minOffset) := by
          unfold addSegment
          rw [hline]
          rfl
        obtain ⟨n, hrun, hn⟩ := ih hlines
          (if minOffset.value < (s.1 + s.2).value then s.1 + s.2 else minOffset)
        refine ⟨n, ?_, ?_⟩
        · rw [List.foldlM_cons, hstep]
          exact hrun
        · rw [hn, segmentsEnd, segmentsEnd, List.foldl_cons]
          congr 1
          split_ifs with hlt
          · exact (max_eq_right hlt.le).symm
          · exact (max_eq_left (not_lt.mp hlt)).symm

theorem calculate_eq {result : Bytes} {segments : List (PyInt × PyInt)}
    (h : segmentsOf result = .ok segments) :
    ∃ n, calculateDwarfSectionsMinFileOffset result = .ok n ∧
      n.value = segmentsEnd 0x1000 segments :=
  foldlM_addSegment h (.ofValue 0x1000)

end DSYMCreator
