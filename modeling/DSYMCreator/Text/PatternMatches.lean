import DSYMCreator.Text.LineTools

/-!
# Matches of a pattern of fixed length

`grep -E -o` with a pattern that has one class of bytes after the other prints the
matches of a line from left to right; the search goes on behind each match. A byte
that is in no class of the pattern cuts a line in two that are searched apart.
-/
namespace Text

/-- One class for each byte of a match. -/
abbrev Pattern := List (UInt8 → Bool)

/-- The pattern matches at the front of a text. -/
def matchesFront : Pattern → Bytes → Bool
  | [], _ => true
  | _ :: _, [] => false
  | q :: p, c :: s => q c && matchesFront p s

/-- The matches in a text, behind the first `skip` bytes of it. -/
def matchesFrom (p : Pattern) : ℕ → Bytes → List Bytes
  | _, [] => []
  | skip + 1, _ :: s => matchesFrom p skip s
  | 0, c :: s =>
    if matchesFront p (c :: s) then (c :: s).take p.length :: matchesFrom p (p.length - 1) s
    else matchesFrom p 0 s

/-- What `grep -E -o` prints for one line. -/
def patternMatches (p : Pattern) (line : Bytes) : List Bytes := matchesFrom p 0 line

variable {p : Pattern} {s xs ys : Bytes} {c : UInt8} {skip : ℕ}

@[simp] theorem matchesFrom_nil : matchesFrom p skip [] = [] := by
  cases skip <;> rfl

theorem length_le_of_matchesFront (h : matchesFront p s = true) : p.length ≤ s.length := by
  induction p generalizing s with
  | nil => exact Nat.zero_le _
  | cons q p ih =>
    cases s with
    | nil => cases h
    | cons c s =>
      rw [matchesFront, Bool.and_eq_true] at h
      exact Nat.succ_le_succ (ih h.2)

theorem matchesFront_append_cons (hc : ∀ q ∈ p, q c = false) :
    matchesFront p (xs ++ c :: ys) = matchesFront p xs := by
  induction p generalizing xs with
  | nil => rfl
  | cons q p ih =>
    have hrest : matchesFront p (xs.tail ++ c :: ys) = matchesFront p xs.tail :=
      ih fun r hr => hc r (List.mem_cons_of_mem q hr)
    cases xs with
    | nil => simp [matchesFront, hc q List.mem_cons_self]
    | cons x xs =>
      rw [List.cons_append, matchesFront, matchesFront]
      rw [List.tail_cons] at hrest
      rw [hrest]

theorem matchesFrom_append_cons (hp : p ≠ []) (hc : ∀ q ∈ p, q c = false)
    (hskip : skip ≤ xs.length) :
    matchesFrom p skip (xs ++ c :: ys) = matchesFrom p skip xs ++ matchesFrom p 0 ys := by
  induction xs generalizing skip with
  | nil =>
    obtain rfl : skip = 0 := by simpa using hskip
    have hfront : matchesFront p (c :: ys) = false := by
      obtain ⟨q, r, rfl⟩ := List.exists_cons_of_ne_nil hp
      simp [matchesFront, hc q List.mem_cons_self]
    rw [List.nil_append, matchesFrom_nil, List.nil_append, matchesFrom, hfront]
    rfl
  | cons x xs ih =>
    cases skip with
    | succ skip => exact ih (Nat.le_of_succ_le_succ hskip)
    | zero =>
      have hfront : matchesFront p (x :: xs ++ c :: ys) = matchesFront p (x :: xs) :=
        matchesFront_append_cons hc
      rw [List.cons_append] at hfront ⊢
      rw [matchesFrom, matchesFrom, hfront]
      split_ifs with hmatch
      · have hlength := length_le_of_matchesFront hmatch
        have htake : (x :: (xs ++ c :: ys)).take p.length = (x :: xs).take p.length :=
          List.take_append_of_le_length hlength
        rw [htake, ih (by rw [List.length_cons] at hlength; omega), List.cons_append]
      · exact ih (Nat.zero_le _)

/-- The byte cuts the line. -/
theorem patternMatches_append_cons (hp : p ≠ []) (hc : ∀ q ∈ p, q c = false) (xs ys : Bytes) :
    patternMatches p (xs ++ c :: ys) = patternMatches p xs ++ patternMatches p ys :=
  matchesFrom_append_cons hp hc (Nat.zero_le _)

theorem matchesFront_take (h : matchesFront p s = true) : matchesFront p (s.take p.length) = true := by
  induction p generalizing s with
  | nil => rfl
  | cons q p ih =>
    cases s with
    | nil => cases h
    | cons c s =>
      rw [matchesFront, Bool.and_eq_true] at h
      rw [List.length_cons, List.take_succ_cons, matchesFront, h.1, ih h.2]
      rfl

theorem of_mem_matchesFrom {r : Bytes} (h : r ∈ matchesFrom p skip s) :
    r.length = p.length ∧ matchesFront p r = true := by
  induction s generalizing skip with
  | nil => simp at h
  | cons c s ih =>
    cases skip with
    | succ skip => exact ih h
    | zero =>
      rw [matchesFrom] at h
      split_ifs at h with hmatch
      · rcases List.mem_cons.mp h with rfl | h
        · exact ⟨List.length_take_of_le (length_le_of_matchesFront hmatch), matchesFront_take hmatch⟩
        · exact ih h
      · exact ih h

theorem patternMatches_self (hne : s ≠ []) (hlength : s.length = p.length)
    (h : matchesFront p s = true) : patternMatches p s = [s] := by
  have hskipped (k : ℕ) (t : Bytes) (hk : t.length ≤ k) : matchesFrom p k t = [] := by
    induction t generalizing k with
    | nil => exact matchesFrom_nil
    | cons c t ih =>
      cases k with
      | zero => simp at hk
      | succ k => exact ih k (Nat.le_of_succ_le_succ hk)
  obtain ⟨c, t, rfl⟩ := List.exists_cons_of_ne_nil hne
  rw [patternMatches, matchesFrom, if_pos h, ← hlength, List.take_length,
    hskipped _ t (by simp)]

theorem exists_class (h : matchesFront p s = true) (hlength : s.length ≤ p.length)
    (hc : c ∈ s) : ∃ q ∈ p, q c = true := by
  induction p generalizing s with
  | nil =>
    obtain rfl := List.eq_nil_of_length_eq_zero (Nat.le_zero.mp hlength)
    cases hc
  | cons q p ih =>
    cases s with
    | nil => cases hc
    | cons d s =>
      rw [matchesFront, Bool.and_eq_true] at h
      rcases List.mem_cons.mp hc with rfl | hc
      · exact ⟨q, List.mem_cons_self, h.1⟩
      · obtain ⟨r, hr, hrc⟩ := ih h.2 (Nat.le_of_succ_le_succ hlength) hc
        exact ⟨r, List.mem_cons_of_mem q hr, hrc⟩

theorem matchesFront_replicate {q : UInt8 → Bool} {n : ℕ} (hlength : xs.length = n)
    (h : ∀ c ∈ xs, q c = true) :
    matchesFront (List.replicate n q ++ p) (xs ++ ys) = matchesFront p ys := by
  subst hlength
  induction xs with
  | nil => rfl
  | cons x xs ih =>
    rw [List.length_cons, List.replicate_succ, List.cons_append, List.cons_append, matchesFront,
      h x List.mem_cons_self, Bool.true_and]
    exact ih fun c hc => h c (List.mem_cons_of_mem x hc)

/-- If each class has only bytes that satisfy `f` or only bytes that do not, all matches have
the same number of bytes that do. -/
theorem length_filter_of_matchesFront {f : UInt8 → Bool} {g : (UInt8 → Bool) → Bool}
    (hg : ∀ q ∈ p, ∀ c, q c = true → f c = g q) (h : matchesFront p s = true)
    (hlength : s.length = p.length) : (s.filter f).length = (p.filter g).length := by
  induction p generalizing s with
  | nil =>
    obtain rfl := List.eq_nil_of_length_eq_zero hlength
    rfl
  | cons q p ih =>
    cases s with
    | nil => cases h
    | cons c s =>
      rw [matchesFront, Bool.and_eq_true] at h
      have hrest := ih (fun r hr => hg r (List.mem_cons_of_mem q hr)) h.2 (Nat.succ.inj hlength)
      have hfirst := hg q List.mem_cons_self c h.1
      rw [List.filter_cons, List.filter_cons, hfirst]
      split_ifs
      · rw [List.length_cons, List.length_cons, hrest]
      · exact hrest

end Text
