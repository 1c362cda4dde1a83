import DSYMCreator.Script.MachoDump
import DSYMCreator.Script.ObjcSymbols
import DSYMCreator.Script.Segments

/-!
# Scraping the segments from the dump

The script keeps the lines of the dump that have `vm_addr` or `vm_size` somewhere
in them, takes every run of digits from these lines and reads the runs in pairs.
An even number of runs gives the greatest sum of a pair; with an odd number the
last line has one number only and cannot be unpacked.
-/
namespace DSYMCreator

open Text Python

def vmPatterns : List Bytes := [ascii "vm_addr", ascii "vm_size"]

/-- `egrep "vm_addr|vm_size" | egrep -o "[0-9]+" | paste - -`. -/
def scrapePairs (output : Bytes) : Bytes :=
  unlines (pasteTwo (egrepDigits (egrep vmPatterns (textLines output))))

/-- The function, for a binary with these bytes. -/
def calculateDwarfSectionsMinFileOffsetFromBinary (binary : Bytes) : Except Error PyInt :=
  calculateDwarfSectionsMinFileOffset (runBash (scrapePairs (MachoDump.machoDump binary)))

/-- The greatest sum of a pair, and at least `top`. -/
def greatestEnd (top : ℕ) (ranges : List (ℕ × ℕ)) : ℕ :=
  ranges.foldl (fun top r => max top (r.1 + r.2)) top

theorem greatestEnd_cons (top : ℕ) (r : ℕ × ℕ) (ranges : List (ℕ × ℕ)) :
    greatestEnd top (r :: ranges) = greatestEnd (max top (r.1 + r.2)) ranges := rfl

theorem greatestEnd_eq_iff {top n : ℕ} {ranges : List (ℕ × ℕ)} :
    greatestEnd top ranges = n ↔ top ≤ n ∧ (∀ r ∈ ranges, r.1 + r.2 ≤ n) ∧
      (n = top ∨ ∃ r ∈ ranges, r.1 + r.2 = n) := by
  induction ranges generalizing top with
  | nil =>
    simp only [greatestEnd, List.foldl_nil, List.not_mem_nil, false_implies, implies_true,
      false_and, exists_false, or_false, true_and]
    omega
  | cons r ranges ih =>
    rw [greatestEnd_cons, ih, List.forall_mem_cons, max_le_iff, and_assoc, and_assoc]
    refine and_congr_right fun htop => and_congr_right fun hr => and_congr_right fun _ => ?_
    have hmax : n = max top (r.1 + r.2) ↔ n = top ∨ r.1 + r.2 = n := by omega
    rw [hmax, List.exists_mem_cons_iff, or_assoc]

/-! ## The loop over the pairs -/

/-- `ofValue` of both numbers of a pair. -/
def pyPair (r : ℕ × ℕ) : PyInt × PyInt := (.ofValue r.1, .ofValue r.2)

theorem segmentsEnd_pyPair (top : ℕ) (ranges : List (ℕ × ℕ)) :
    segmentsEnd top (ranges.map pyPair) = greatestEnd top ranges := by
  induction ranges generalizing top with
  | nil => rfl
  | cons r ranges ih =>
    have hstep : max (top : ℤ) ((pyPair r).1.value + (pyPair r).2.value) =
        ((max top (r.1 + r.2) : ℕ) : ℤ) := by
      simp [pyPair]
    rw [List.map_cons, segmentsEnd, List.foldl_cons, hstep, greatestEnd_cons]
    exact ih _

/-- A run of digits. -/
def IsRun (s : Bytes) : Prop := s ≠ [] ∧ ∀ c ∈ s, isDigit c = true

theorem IsRun.notSpace {s : Bytes} (h : IsRun s) {c : UInt8} (hc : c ∈ s) : isSpace c = false :=
  (isDigit_ne (h.2 c hc)).1

theorem IsRun.trimmed {s : Bytes} (h : IsRun s) : Trimmed s where
  ne_nil := h.1
  first := fun _ hc => h.notSpace (List.mem_of_mem_head? hc)
  last := fun _ hc => h.notSpace (List.mem_of_mem_getLast? hc)

theorem IsRun.newline_notMem {s : Bytes} (h : IsRun s) : newline ∉ s := by
  intro hmem
  exact absurd (h.notSpace hmem) (by decide)

theorem words_run {a : Bytes} (ha : IsRun a) : words a = [a] := by
  unfold words
  rw [List.splitOnP_eq_singleton fun c hc => ha.notSpace hc]
  simp [ha.1]

theorem words_pair {a b : Bytes} (ha : IsRun a) (hb : IsRun b) :
    words (joinWith tab [a, b]) = [a, b] := by
  have hline : joinWith tab [a, b] = a ++ tab :: b := by simp [joinWith]
  have htab : isSpace tab = true := by decide
  have hsplit := List.splitOnP_append_cons a b htab
  have hb' := words_run hb
  have ha' := words_run ha
  unfold words at ha' hb' ⊢
  rw [hline, hsplit, List.filter_append, ha', hb']
  rfl

theorem readSegment_pair {a b : Bytes} (ha : IsRun a) (hb : IsRun b) :
    readSegment (joinWith tab [a, b]) = .ok (pyPair (decimalValue a, decimalValue b)) := by
  unfold readSegment
  rw [words_pair ha hb, unpack2]
  simp only [int_run ha.1 ha.2, int_run hb.1 hb.2, bind, Except.bind, pure, Except.pure]
  rfl

theorem readSegment_single {a : Bytes} (ha : IsRun a) : readSegment a = .error .valueError := by
  unfold readSegment
  rw [words_run ha]
  rfl

theorem mapM_readSegment {ps : List (Bytes × Bytes)} (h : ∀ p ∈ ps, IsRun p.1 ∧ IsRun p.2) :
    (ps.map fun p => joinWith tab [p.1, p.2]).mapM readSegment =
      .ok (ps.map fun p => pyPair (decimalValue p.1, decimalValue p.2)) := by
  induction ps with
  | nil => rfl
  | cons p ps ih =>
    obtain ⟨h₁, h₂⟩ := h p List.mem_cons_self
    have hrest := ih fun q hq => h q (List.mem_cons_of_mem p hq)
    rw [List.map_cons, List.mapM_cons, readSegment_pair h₁ h₂, hrest]
    rfl

/-- The line of a pair stays a line of its own when the output is stripped and split. -/
theorem pair_line {a b : Bytes} (ha : IsRun a) (hb : IsRun b) :
    Trimmed (joinWith tab [a, b]) ∧ newline ∉ joinWith tab [a, b] := by
  have hparts : ∀ p ∈ [a, b], IsRun p := by
    intro p hp
    rcases List.mem_pair.mp hp with rfl | rfl
    · exact ha
    · exact hb
  refine ⟨trimmed_joinWith (fun p hp => (hparts p hp).trimmed) (by simp), ?_⟩
  intro hmem
  rcases mem_joinWith hmem with hsep | ⟨p, hp, hmem⟩
  · exact absurd hsep (by decide)
  · exact (hparts p hp).newline_notMem hmem

theorem forall_pair_lines {runs : List Bytes} (h : ∀ r ∈ runs, IsRun r) :
    ∀ l ∈ (pairs runs).map fun p => joinWith tab [p.1, p.2], Trimmed l ∧ newline ∉ l := by
  intro l hl
  obtain ⟨p, hp, rfl⟩ := List.mem_map.mp hl
  obtain ⟨h₁, h₂⟩ := mem_pairs hp
  exact pair_line (h p.1 h₁) (h p.2 h₂)

theorem runBash_even {runs : List Bytes} (h : ∀ r ∈ runs, IsRun r) (hne : runs ≠ [])
    (heven : Even runs.length) :
    (runBash (unlines (pasteTwo runs))).splitOn newline =
      (pairs runs).map fun p => joinWith tab [p.1, p.2] := by
  have hlines := forall_pair_lines h
  have hsome : (pairs runs).map (fun p => joinWith tab [p.1, p.2]) ≠ [] := by
    rcases runs with _ | ⟨a, _ | ⟨b, runs⟩⟩
    · exact absurd rfl hne
    · exact absurd heven Nat.not_even_one
    · simp [pairs]
  rw [pasteTwo_of_even heven, runBash, strip_unlines (fun l hl => (hlines l hl).1) hsome,
    splitOn_joinWith (fun l hl => (hlines l hl).2) hsome]

/-- The tab behind a last number that has no partner is stripped. -/
theorem runBash_odd {runs : List Bytes} {a : Bytes} (h : ∀ r ∈ runs, IsRun r) (ha : IsRun a)
    (heven : Even runs.length) :
    (runBash (unlines (pasteTwo (runs ++ [a])))).splitOn newline =
      ((pairs runs).map fun p => joinWith tab [p.1, p.2]) ++ [a] := by
  generalize hls : (pairs runs).map (fun p => joinWith tab [p.1, p.2]) = ls
  have hlines : ∀ l ∈ ls ++ [a], Trimmed l ∧ newline ∉ l := by
    intro l hl
    rcases List.mem_append.mp hl with hl | hl
    · exact forall_pair_lines h l (hls ▸ hl)
    · rw [List.mem_singleton.mp hl]
      exact ⟨ha.trimmed, ha.newline_notMem⟩
  have hsome : ls ++ [a] ≠ [] := by simp
  have hend : unlines (ls ++ [joinWith tab [a, []]]) =
      joinWith newline (ls ++ [a]) ++ [tab, newline] := by
    have hjoin : unlines ls ++ a = joinWith newline (ls ++ [a]) := by
      have hall := unlines_eq hsome
      simp only [unlines, List.flatMap_append, List.flatMap_cons, List.flatMap_nil,
        List.append_nil, ← List.append_assoc] at hall
      exact List.append_cancel_right hall
    rw [← hjoin]
    simp [unlines, joinWith]
  have htrim : Trimmed (joinWith newline (ls ++ [a])) :=
    trimmed_joinWith (fun l hl => (hlines l hl).1) hsome
  have hblanks : ∀ c ∈ [tab, newline], isSpace c = true := by
    intro c hc
    rcases List.mem_pair.mp hc with rfl | rfl
    · decide
    · decide
  rw [pasteTwo_of_odd heven, pasteTwo_of_even heven, hls, runBash, hend, strip_append htrim hblanks,
    splitOn_joinWith (fun l hl => (hlines l hl).2) hsome]

theorem calculate_even {runs : List Bytes} (h : ∀ r ∈ runs, IsRun r) (hne : runs ≠ [])
    (heven : Even runs.length) :
    ∃ n, calculateDwarfSectionsMinFileOffset (runBash (unlines (pasteTwo runs))) = .ok n ∧
      n.value = greatestEnd 0x1000 (pairs (runs.map decimalValue)) := by
  have hread : segmentsOf (runBash (unlines (pasteTwo runs))) =
      .ok ((pairs (runs.map decimalValue)).map pyPair) := by
    unfold segmentsOf
    rw [runBash_even h hne heven, mapM_readSegment, pairs_map, List.map_map]
    · rfl
    · intro p hp
      obtain ⟨h₁, h₂⟩ := mem_pairs hp
      exact ⟨h p.1 h₁, h p.2 h₂⟩
  obtain ⟨n, hrun, hn⟩ := calculate_eq hread
  exact ⟨n, hrun, hn.trans (segmentsEnd_pyPair 0x1000 _)⟩

theorem calculate_odd {runs : List Bytes} (h : ∀ r ∈ runs, IsRun r) (hodd : ¬ Even runs.length) :
    calculateDwarfSectionsMinFileOffset (runBash (unlines (pasteTwo runs))) =
      .error .valueError := by
  obtain ⟨front, a, rfl⟩ : ∃ front a, runs = front ++ [a] := by
    have hne : runs ≠ [] := by
      rintro rfl
      exact hodd Even.zero
    exact ⟨runs.dropLast, runs.getLast hne, (List.dropLast_append_getLast hne).symm⟩
  have heven : Even front.length := by
    rw [List.length_append, List.length_singleton, Nat.even_add_one, not_not] at hodd
    exact hodd
  have hfront : ∀ r ∈ front, IsRun r := fun r hr => h r (List.mem_append_left _ hr)
  have ha : IsRun a := h a (by simp)
  have hpairs : ∀ p ∈ pairs front, IsRun p.1 ∧ IsRun p.2 := by
    intro p hp
    obtain ⟨h₁, h₂⟩ := mem_pairs hp
    exact ⟨hfront p.1 h₁, hfront p.2 h₂⟩
  obtain ⟨n, hrun, -⟩ := foldlM_addSegment (mapM_readSegment hpairs) (.ofValue 0x1000)
  unfold calculateDwarfSectionsMinFileOffset
  rw [runBash_odd hfront ha heven, List.foldlM_append, hrun]
  simp only [bind, Except.bind, List.foldlM_cons, addSegment, readSegment_single ha]

end DSYMCreator
