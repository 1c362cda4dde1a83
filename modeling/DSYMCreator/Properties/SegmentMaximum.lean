import DSYMCreator.Script.DumpRuns

/-!
# The end of the segments that the script finds

The script finds the end of the segments exactly when the digits that it takes
from strings of the binary do no harm: there is an even number of them, no pair of
successive numbers has a sum beyond the segments, and some pair has the sum of the
last segment. A binary whose strings show no digits meets this condition.
-/
namespace DSYMCreator

open Text Python MachO MachoDump

/-- The greatest end of the segments, and at least `0x1000`. -/
def segmentsTop (m : Image) : ℕ := greatestEnd 0x1000 m.segments

/-- The function returns the greatest end of the segments. -/
def SegmentMaximum (binary : Bytes) (m : Image) : Prop :=
  ∃ n, calculateDwarfSectionsMinFileOffsetFromBinary binary = .ok n ∧ n.value = segmentsTop m

/-- The digit runs in the strings of an image that have `vm_addr` or `vm_size` in them. -/
def strayRuns (m : Image) : List ℕ := m.strings.flatMap strays

/-- All numbers that are read in pairs: those of the segments and the stray ones. -/
def shownNumbers (m : Image) : List ℕ := m.commands.flatMap (commandNumbers m)

/-- The stray numbers of an image leave the greatest end as it is. -/
structure Harmless (m : Image) : Prop where
  even : Even (strayRuns m).length
  bounded : ∀ p ∈ pairs (shownNumbers m), p.1 + p.2 ≤ segmentsTop m
  reached : segmentsTop m = 0x1000 ∨ ∃ p ∈ pairs (shownNumbers m), p.1 + p.2 = segmentsTop m

/-! ## Stray numbers and numbers of segments -/

theorem length_commandNumbers (m : Image) (off : ℕ) :
    (commandNumbers m off).length =
      2 * (m.segmentAt off).toList.length + ((m.stringsAt off).flatMap strays).length := by
  unfold commandNumbers Image.segmentAt Image.stringsAt
  by_cases h₁ : m.u32 off = 1
  · simp [h₁, segmentNumbers]
    omega
  by_cases h₂ : m.u32 off = 2
  · simp [h₂]
  by_cases h₂₅ : m.u32 off = 25
  · simp [h₂₅, segmentNumbers]
    omega
  · simp [h₁, h₂, h₂₅]

theorem length_shownNumbers (m : Image) :
    (shownNumbers m).length = 2 * m.segments.length + (strayRuns m).length := by
  unfold shownNumbers Image.segments strayRuns Image.strings
  induction m.commands with
  | nil => rfl
  | cons off offs ih =>
    rw [List.flatMap_cons, List.length_append, length_commandNumbers, ih]
    cases hseg : m.segmentAt off with
    | none =>
      simp [hseg]
      omega
    | some r =>
      simp [hseg]
      omega

theorem commandNumbers_of_no_strays {m : Image} {off : ℕ}
    (h : ∀ s ∈ m.stringsAt off, strays s = []) :
    commandNumbers m off = (m.segmentAt off).toList.flatMap fun r => [r.1, r.2] := by
  unfold Image.stringsAt at h
  unfold commandNumbers Image.segmentAt
  by_cases h₁ : m.u32 off = 1
  · simp only [h₁, if_true, List.forall_mem_cons] at h
    have hsections := List.flatMap_eq_nil_iff.mpr h.2
    simp [h₁, segmentNumbers, h.1, hsections]
  by_cases h₂ : m.u32 off = 2
  · simp only [h₂, if_true, if_neg (by norm_num : ¬ (2 : ℕ) = 1), List.forall_mem_cons] at h
    have hsymbols := List.flatMap_eq_nil_iff.mpr h.2
    simp [h₂, h.1, hsymbols]
  by_cases h₂₅ : m.u32 off = 25
  · simp only [h₂₅, if_true, if_neg (by norm_num : ¬ (25 : ℕ) = 1),
      if_neg (by norm_num : ¬ (25 : ℕ) = 2), List.forall_mem_cons] at h
    have hsections := List.flatMap_eq_nil_iff.mpr h.2
    simp [h₂₅, segmentNumbers, h.1, hsections]
  · simp [h₁, h₂, h₂₅]

theorem pairs_flatMap (ranges : List (ℕ × ℕ)) :
    pairs (ranges.flatMap fun r => [r.1, r.2]) = ranges := by
  induction ranges with
  | nil => rfl
  | cons r ranges ih => exact congrArg (r :: ·) ih

theorem pairs_shownNumbers {m : Image} (h : ∀ s ∈ m.strings, strays s = []) :
    pairs (shownNumbers m) = m.segments := by
  have hshown : shownNumbers m = m.segments.flatMap fun r => [r.1, r.2] := by
    unfold Image.strings at h
    unfold shownNumbers Image.segments
    generalize m.commands = offs at h ⊢
    induction offs with
    | nil => rfl
    | cons off offs ih =>
      have hoff := commandNumbers_of_no_strays fun s hs =>
        h s (List.mem_flatMap.mpr ⟨off, List.mem_cons_self, hs⟩)
      have hrest := ih fun s hs => by
        obtain ⟨off', hoff', hs⟩ := List.mem_flatMap.mp hs
        exact h s (List.mem_flatMap.mpr ⟨off', List.mem_cons_of_mem off hoff', hs⟩)
      rw [List.flatMap_cons, hoff, hrest]
      cases hseg : m.segmentAt off with
      | none => simp [hseg]
      | some r => simp [hseg]
  rw [hshown, pairs_flatMap]

theorem harmless_of_no_strays {m : Image} (h : ∀ s ∈ m.strings, strays s = []) : Harmless m := by
  obtain ⟨-, hbounded, hreached⟩ := greatestEnd_eq_iff.mp (rfl : greatestEnd 0x1000 m.segments = _)
  have hnone : strayRuns m = [] := List.flatMap_eq_nil_iff.mpr h
  have hpairs := pairs_shownNumbers h
  exact ⟨by simp [hnone], by rwa [hpairs], by rwa [hpairs]⟩

/-! ## What the function returns -/

theorem isRun_egrepDigits {lines : List Bytes} : ∀ r ∈ egrepDigits lines, IsRun r := by
  intro r hr
  obtain ⟨line, -, hr⟩ := List.mem_flatMap.mp hr
  exact mem_digitRuns hr

theorem calculate_of_prints {binary : Bytes} {lines : List Bytes} {m : Image}
    (h : Prints binary lines) (hm : image? binary = some m) :
    ∃ runs, (∀ r ∈ runs, IsRun r) ∧ runs.map decimalValue = shownNumbers m ∧
      calculateDwarfSectionsMinFileOffsetFromBinary binary =
        calculateDwarfSectionsMinFileOffset (runBash (unlines (pasteTwo runs))) := by
  obtain ⟨m', hm', hlines, hnumbers⟩ := prints_ok h
  obtain rfl : m = m' := Option.some.inj (hm.symm.trans hm')
  refine ⟨egrepDigits (egrep vmPatterns lines), isRun_egrepDigits,
    (map_egrepDigits lines).trans hnumbers, ?_⟩
  obtain ⟨f, hrun, rfl⟩ := h
  have hdump : machoDump binary = unlines f.printed := by
    unfold machoDump
    rw [hrun]
  unfold calculateDwarfSectionsMinFileOffsetFromBinary scrapePairs
  rw [hdump, textLines_unlines hlines]

theorem even_shownNumbers {m : Image} :
    Even (shownNumbers m).length ↔ Even (strayRuns m).length := by
  rw [length_shownNumbers, Nat.even_add]
  simp

theorem calculate_of_odd {binary : Bytes} {m : Image} (h : Dumps binary)
    (hm : image? binary = some m) (hodd : ¬ Even (strayRuns m).length) :
    calculateDwarfSectionsMinFileOffsetFromBinary binary = .error .valueError := by
  obtain ⟨lines, hprints⟩ := h
  obtain ⟨runs, hruns, hshown, hcalculate⟩ := calculate_of_prints hprints hm
  rw [hcalculate]
  apply calculate_odd hruns
  rwa [← even_shownNumbers, ← hshown, List.length_map] at hodd

theorem calculate_of_even {binary : Bytes} {m : Image} (h : Dumps binary)
    (hm : image? binary = some m) (hsegments : m.segments ≠ [])
    (heven : Even (strayRuns m).length) :
    ∃ n, calculateDwarfSectionsMinFileOffsetFromBinary binary = .ok n ∧
      n.value = greatestEnd 0x1000 (pairs (shownNumbers m)) := by
  obtain ⟨lines, hprints⟩ := h
  obtain ⟨runs, hruns, hshown, hcalculate⟩ := calculate_of_prints hprints hm
  have hlength : runs.length = (shownNumbers m).length := by rw [← hshown, List.length_map]
  have hne : runs ≠ [] := by
    rintro rfl
    have hpos := List.length_pos_iff.mpr hsegments
    rw [length_shownNumbers, List.length_nil] at hlength
    omega
  rw [hcalculate, ← hshown]
  apply calculate_even hruns hne
  rwa [hlength, even_shownNumbers]

/-- The function returns the end of the segments if and only if the strays are harmless. -/
theorem segmentMaximum_iff {binary : Bytes} {m : Image} (h : Dumps binary)
    (hm : image? binary = some m) (hsegments : m.segments ≠ []) :
    SegmentMaximum binary m ↔ Harmless m := by
  have htop : 0x1000 ≤ segmentsTop m := (greatestEnd_eq_iff.mp rfl).1
  constructor
  · rintro ⟨n, hrun, hn⟩
    by_cases heven : Even (strayRuns m).length
    · obtain ⟨n', hrun', hn'⟩ := calculate_of_even h hm hsegments heven
      obtain rfl : n = n' := Except.ok.inj (hrun.symm.trans hrun')
      have hgreatest : greatestEnd 0x1000 (pairs (shownNumbers m)) = segmentsTop m := by
        exact_mod_cast hn'.symm.trans hn
      obtain ⟨-, hbounded, hreached⟩ := greatestEnd_eq_iff.mp hgreatest
      exact ⟨heven, hbounded, hreached⟩
    · rw [calculate_of_odd h hm heven] at hrun
      cases hrun
  · intro hharmless
    obtain ⟨n, hrun, hn⟩ := calculate_of_even h hm hsegments hharmless.even
    have hgreatest : greatestEnd 0x1000 (pairs (shownNumbers m)) = segmentsTop m :=
      greatestEnd_eq_iff.mpr ⟨htop, hharmless.bounded, hharmless.reached⟩
    rw [hgreatest] at hn
    exact ⟨n, hrun, hn⟩

/-- A 32-bit image with one segment and no section. -/
def oneSegment (segname : Bytes) (vmaddr vmsize : ℕ) : Bytes :=
  [0xfeedface, 12, 9, 2, 1, 56, 0, 1, 56].flatMap (Binary.leBytes 4) ++ segname ++
    [vmaddr, vmsize, 0, 0, 7, 5, 0, 0].flatMap (Binary.leBytes 4)

def textSegment : Bytes := oneSegment (ascii "__TEXT" ++ List.replicate 10 0) 0x4000 0x1000

theorem segmentMaximum_iff_textSegment :
    SegmentMaximum textSegment ⟨textSegment, true, false⟩ := by
  have hstrays : ∀ s ∈ (⟨textSegment, true, false⟩ : Image).strings, strays s = [] := by
    decide +kernel
  apply (segmentMaximum_iff _ _ _).mpr (harmless_of_no_strays hstrays)
  · decide +kernel
  · rfl
  · decide +kernel

/-- The name of a segment can have a pattern in it; the bytes behind the name show digits. -/
def vmSizeSegment : Bytes := oneSegment (ascii "vm_size" ++ List.replicate 9 0) 0x4000 0x1000

theorem vmSizeSegment_raises :
    Dumps vmSizeSegment ∧ image? vmSizeSegment = some ⟨vmSizeSegment, true, false⟩ ∧
      (⟨vmSizeSegment, true, false⟩ : Image).segments = [(0x4000, 0x1000)] ∧
      ¬ SegmentMaximum vmSizeSegment ⟨vmSizeSegment, true, false⟩ := by
  have hdumps : Dumps vmSizeSegment := by decide +kernel
  have himage : image? vmSizeSegment = some ⟨vmSizeSegment, true, false⟩ := rfl
  have hodd : ¬ Even (strayRuns ⟨vmSizeSegment, true, false⟩).length := by decide +kernel
  refine ⟨hdumps, himage, by decide +kernel, ?_⟩
  rintro ⟨n, hrun, -⟩
  rw [calculate_of_odd hdumps himage hodd] at hrun
  cases hrun

end DSYMCreator
