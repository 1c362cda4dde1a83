import DSYMCreator.Text.Lines

/-!
# Line tools of a shell pipeline

`grep -E` with literal alternatives, `grep -E -o '[0-9]+'` and `paste - -`, each
as a function on lines. A pattern that does not have a certain byte is found on
one side of that byte or on the other, and the digit runs of a line are those in
front of a byte that is no digit and those behind it.
-/
namespace Text

/-- The lines of a text; a last line without a newline counts. -/
def textLines (s : Bytes) : List Bytes :=
  let parts := s.splitOn newline
  if parts.getLast? = some [] then parts.dropLast else parts

/-- The pattern stands somewhere in the line. -/
def occursIn (pattern line : Bytes) : Bool := line.tails.any pattern.isPrefixOf

/-- Some alternative stands in the line. -/
def selects (patterns : List Bytes) (line : Bytes) : Bool := patterns.any (occursIn · line)

/-- `egrep "a|b"`. -/
def egrep (patterns lines : List Bytes) : List Bytes := lines.filter (selects patterns)

def isDigit (c : UInt8) : Bool := 48 ≤ c && c ≤ 57

/-- The maximal runs of digits. -/
def digitRuns (line : Bytes) : List Bytes := (line.splitOnP (!isDigit ·)).filter (· ≠ [])

/-- `egrep -o "[0-9]+"`. -/
def egrepDigits (lines : List Bytes) : List Bytes := lines.flatMap digitRuns

/-- `paste - -`: the second line of the last pair can be missing. -/
def pasteTwo : List Bytes → List Bytes
  | [] => []
  | [a] => [joinWith tab [a, []]]
  | a :: b :: lines => joinWith tab [a, b] :: pasteTwo lines

/-- Successive elements in pairs, as long as there are two. -/
def pairs {α : Type*} : List α → List (α × α)
  | a :: b :: xs => (a, b) :: pairs xs
  | _ => []

theorem textLines_unlines {lines : List Bytes} (h : ∀ l ∈ lines, newline ∉ l) :
    textLines (unlines lines) = lines := by
  unfold textLines unlines
  rw [splitOn_terminated h]
  simp

/-! ## Patterns -/

theorem occursIn_iff {pattern line : Bytes} :
    occursIn pattern line = true ↔ pattern <:+: line := by
  rw [List.infix_iff_prefix_suffix]
  simp [occursIn, and_comm]

/-- A pattern does not reach over a byte that it does not have. -/
theorem infix_append_cons_iff {α : Type*} {p xs ys : List α} {c : α} (hc : c ∉ p) :
    p <:+: xs ++ c :: ys ↔ p <:+: xs ∨ p <:+: ys := by
  constructor
  · intro h
    rcases List.infix_append_iff.mp h with h | h | ⟨l₁, l₂, rfl, h₁, h₂⟩
    · exact .inl h
    · rcases List.infix_cons_iff.mp h with h | h
      · rcases List.prefix_cons_iff.mp h with rfl | ⟨t, rfl, -⟩
        · exact .inl (List.nil_infix)
        · exact absurd List.mem_cons_self hc
      · exact .inr h
    · rcases List.prefix_cons_iff.mp h₂ with rfl | ⟨t, rfl, -⟩
      · rw [List.append_nil]
        exact .inl h₁.isInfix
      · exact absurd (List.mem_append_right l₁ List.mem_cons_self) hc
  · rintro (h | h)
    · exact h.trans (List.prefix_append xs (c :: ys)).isInfix
    · exact h.trans ((List.suffix_cons c ys).trans (List.suffix_append xs (c :: ys))).isInfix

theorem occursIn_append_cons {p xs ys : Bytes} {c : UInt8} (hc : c ∉ p) :
    occursIn p (xs ++ c :: ys) = (occursIn p xs || occursIn p ys) := by
  rw [Bool.eq_iff_iff, Bool.or_eq_true, occursIn_iff, occursIn_iff, occursIn_iff]
  exact infix_append_cons_iff hc

theorem selects_append_cons {patterns : List Bytes} {c : UInt8} (hc : ∀ p ∈ patterns, c ∉ p)
    (xs ys : Bytes) :
    selects patterns (xs ++ c :: ys) = (selects patterns xs || selects patterns ys) := by
  induction patterns with
  | nil => rfl
  | cons p patterns ih =>
    have hrest := ih fun q hq => hc q (List.mem_cons_of_mem p hq)
    simp only [selects, List.any_cons] at hrest ⊢
    rw [hrest, occursIn_append_cons (hc p List.mem_cons_self)]
    ac_rfl

theorem selects_eq_false {patterns : List Bytes} {c : UInt8} (hc : ∀ p ∈ patterns, c ∈ p)
    {line : Bytes} (h : c ∉ line) : selects patterns line = false := by
  simp only [selects, List.any_eq_false]
  intro p hp hocc
  exact h ((occursIn_iff.mp hocc).subset (hc p hp))

/-! ## Digit runs -/

theorem digitRuns_append_cons {c : UInt8} (hc : isDigit c = false) (xs ys : Bytes) :
    digitRuns (xs ++ c :: ys) = digitRuns xs ++ digitRuns ys := by
  unfold digitRuns
  rw [List.splitOnP_append_cons xs ys (by simp [hc]), List.filter_append]

theorem digitRuns_of_digits {s : Bytes} (hne : s ≠ []) (h : ∀ c ∈ s, isDigit c = true) :
    digitRuns s = [s] := by
  unfold digitRuns
  rw [List.splitOnP_eq_singleton (by simpa using h)]
  simp [hne]

theorem digitRuns_eq_nil {s : Bytes} (h : ∀ c ∈ s, isDigit c = false) : digitRuns s = [] := by
  induction s with
  | nil => rfl
  | cons c s ih =>
    have hrest := ih fun d hd => h d (List.mem_cons_of_mem c hd)
    exact (digitRuns_append_cons (h c List.mem_cons_self) [] s).trans hrest

theorem splitOnP_pieces {α : Type*} {q : α → Bool} {xs piece : List α}
    (h : piece ∈ xs.splitOnP q) {c : α} (hc : c ∈ piece) : q c = false := by
  induction xs generalizing piece with
  | nil =>
    rw [List.splitOnP_nil, List.mem_singleton] at h
    subst h
    cases hc
  | cons x xs ih =>
    rw [List.splitOnP_cons_eq_if_modifyHead] at h
    split_ifs at h with hx
    · rcases List.mem_cons.mp h with rfl | h
      · cases hc
      · exact ih h hc
    · obtain ⟨head, rest, hsplit⟩ := List.exists_cons_of_ne_nil (List.splitOnP_ne_nil q xs)
      rw [hsplit, List.modifyHead_cons] at h
      rcases List.mem_cons.mp h with rfl | h
      · rcases List.mem_cons.mp hc with rfl | hc
        · simpa using hx
        · exact ih (hsplit ▸ List.mem_cons_self) hc
      · exact ih (hsplit ▸ List.mem_cons_of_mem head h) hc

theorem mem_digitRuns {s run : Bytes} (h : run ∈ digitRuns s) :
    run ≠ [] ∧ ∀ c ∈ run, isDigit c = true := by
  obtain ⟨hpiece, hne⟩ := List.mem_filter.mp h
  refine ⟨by simpa using hne, fun c hc => ?_⟩
  simpa using splitOnP_pieces hpiece hc

/-! ## Pairs of lines -/

theorem pasteTwo_of_even {lines : List Bytes} (h : Even lines.length) :
    pasteTwo lines = (pairs lines).map fun p => joinWith tab [p.1, p.2] := by
  fun_induction pasteTwo lines with
  | case1 => rfl
  | case2 => exact absurd h Nat.not_even_one
  | case3 a b lines ih =>
    have hrest := ih (by simpa [Nat.even_add_one] using h)
    rw [hrest, pairs, List.map_cons]

theorem pasteTwo_of_odd {lines : List Bytes} {a : Bytes} (h : Even lines.length) :
    pasteTwo (lines ++ [a]) = pasteTwo lines ++ [joinWith tab [a, []]] := by
  fun_induction pasteTwo lines with
  | case1 => rfl
  | case2 => exact absurd h Nat.not_even_one
  | case3 b c lines ih =>
    have hrest := ih (by simpa [Nat.even_add_one] using h)
    rw [List.cons_append, List.cons_append, pasteTwo, hrest, List.cons_append]

theorem mem_pairs {α : Type*} {xs : List α} {p : α × α} (h : p ∈ pairs xs) : p.1 ∈ xs ∧ p.2 ∈ xs := by
  fun_induction pairs xs with
  | case1 a b xs ih =>
    rcases List.mem_cons.mp h with rfl | h
    · simp
    · obtain ⟨h₁, h₂⟩ := ih h
      simp [h₁, h₂]
  | case2 => cases h

theorem pairs_map {α β : Type*} (f : α → β) (xs : List α) :
    pairs (xs.map f) = (pairs xs).map fun p => (f p.1, f p.2) := by
  fun_induction pairs xs with
  | case1 a b xs ih => simp [pairs, ih]
  | case2 xs hxs =>
    rcases xs with _ | ⟨a, _ | ⟨b, xs⟩⟩
    · rfl
    · rfl
    · exact absurd rfl (hxs a b xs)

end Text
