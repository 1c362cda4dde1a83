import DSYMCreator.Tool.StringTable

/-!
# Which names the string table can copy

The second pass of `StringTable::dump` either copies every name inside the buffer
or leaves it; its assertion never fails, because both passes wrap alike. Names of
`2 ^ 32` bytes or more are copied only if the wrapped length is the greatest there
is and no name crosses a multiple of `2 ^ 32`.
-/
namespace DSYMCreator.StringTable

/-- The second pass from its start. -/
def copyNames (names : List StdString) : Except Failure LoopState :=
  names.foldlM copyName ⟨⟨List.replicate (neededLength names).toNat 0, ∅⟩, 0⟩

/-- `q` holds of every name and its true offset, the first name standing at `p`. -/
def AtOffsets (q : ℕ → StdString → Prop) : ℕ → List StdString → Prop
  | _, [] => True
  | p, n :: names => q p n ∧ AtOffsets q (p + (n.length + 1)) names

/-- A name whose true offset is `p` can be copied into a buffer of `size` bytes. -/
def CopyFits (size p : ℕ) (n : StdString) : Prop :=
  p % 2 ^ 32 < size ∧ p % 2 ^ 32 + n.length ≤ size

/-- Every name can be copied into the buffer of the first pass. -/
def CopiesFit (names : List StdString) : Prop :=
  AtOffsets (CopyFits (neededLength names).toNat) 0 names

/-- No name crosses a multiple of `2 ^ 32`, nor stands in front of one. -/
def InBlocks (names : List StdString) : Prop :=
  AtOffsets (fun p n => p % 2 ^ 32 + max n.length 1 < 2 ^ 32) 0 names

theorem AtOffsets.imp {q q' : ℕ → StdString → Prop} (h : ∀ p n, q p n → q' p n) :
    ∀ {p : ℕ} {names : List StdString}, AtOffsets q p names → AtOffsets q' p names
  | _, [], _ => trivial
  | p, n :: _, hall => ⟨h p n hall.1, AtOffsets.imp h hall.2⟩

theorem copyName_or {st : LoopState} {n : StdString} {p : ℕ} (hoffset : st.currentOffset = toU32 p) :
    (CopyFits st.result.buffer.length p n ∧ ∃ st', copyName st n = .ok st') ∨
      (¬ CopyFits st.result.buffer.length p n ∧ copyName st n = .error .outOfBounds) := by
  unfold copyName memcpyAt CopyFits
  rw [hoffset, toNat_toU32]
  by_cases h : p % 2 ^ 32 < st.result.buffer.length ∧
      p % 2 ^ 32 + n.length ≤ st.result.buffer.length
  · left
    rw [if_pos h]
    exact ⟨h, _, rfl⟩
  · right
    rw [if_neg h]
    exact ⟨h, rfl⟩

/-- The pass copies all names, or runs out of the buffer at one of them. -/
theorem foldlM_copyName_or (names : List StdString) (st : LoopState) {p : ℕ}
    (hoffset : st.currentOffset = toU32 p) :
    (AtOffsets (CopyFits st.result.buffer.length) p names ∧
      ∃ st', names.foldlM copyName st = .ok st' ∧
        st'.currentOffset = toU32 (p + (concatNames names).length)) ∨
    (¬ AtOffsets (CopyFits st.result.buffer.length) p names ∧
      names.foldlM copyName st = .error .outOfBounds) := by
  induction names generalizing st p with
  | nil => exact .inl ⟨trivial, st, rfl, hoffset⟩
  | cons n names ih =>
    rcases copyName_or (n := n) hoffset with ⟨hfits, st', hstep⟩ | ⟨hfits, hstep⟩
    · have hcopied := copyName_eq_ok hoffset hstep
      have hrest := ih st' hcopied.offset
      rw [hcopied.length] at hrest
      rcases hrest with ⟨hrest, last, hrun, hlast⟩ | ⟨hrest, hrun⟩
      · refine .inl ⟨⟨hfits, hrest⟩, last, ?_, ?_⟩
        · rw [List.foldlM_cons, hstep, ok_bind, hrun]
        · rw [hlast, concatNames_cons, List.length_append, List.length_cons]
          congr 1
          omega
      · refine .inr ⟨fun h => hrest h.2, ?_⟩
        rw [List.foldlM_cons, hstep, ok_bind, hrun]
    · refine .inr ⟨fun h => hfits h.1, ?_⟩
      rw [List.foldlM_cons, hstep]
      rfl

theorem copyNames_or (names : List StdString) :
    (CopiesFit names ∧ ∃ st, copyNames names = .ok st ∧ st.currentOffset = neededLength names) ∨
      (¬ CopiesFit names ∧ copyNames names = .error .outOfBounds) := by
  have hstart : (0 : BitVec 32) = toU32 0 := rfl
  have h := foldlM_copyName_or names ⟨⟨List.replicate (neededLength names).toNat 0, ∅⟩, 0⟩ hstart
  rw [List.length_replicate, Nat.zero_add, ← neededLength_eq] at h
  exact h

theorem dump_eq_copyNames (names : List StdString) : dump names = (do
    let st ← copyNames names
    cAssert (st.currentOffset = neededLength names) .stringTableLength
    return st.result) := rfl

theorem exists_dump_of_copiesFit {names : List StdString} (h : CopiesFit names) :
    ∃ st, copyNames names = .ok st ∧ st.currentOffset = neededLength names ∧
      dump names = .ok st.result := by
  rcases copyNames_or names with ⟨-, st, hrun, hoffset⟩ | ⟨hno, -⟩
  · have hcheck : cAssert (st.currentOffset = neededLength names) .stringTableLength = .ok () :=
      cAssert_eq_ok.mpr hoffset
    refine ⟨st, hrun, hoffset, ?_⟩
    rw [dump_eq_copyNames, hrun, ok_bind, hcheck]
    rfl
  · exact absurd h hno

/-- When one does not, the second pass writes behind its buffer. -/
theorem dump_of_not_copiesFit {names : List StdString} (h : ¬ CopiesFit names) :
    dump names = .error .outOfBounds := by
  rcases copyNames_or names with ⟨hfit, -⟩ | ⟨-, hrun⟩
  · exact absurd hfit h
  · rw [dump_eq_copyNames, hrun]
    rfl

theorem copiesFit_of_lt {names : List StdString} (h : (concatNames names).length < 2 ^ 32) :
    CopiesFit names := by
  by_contra hno
  obtain ⟨m, hdump⟩ := dump_ok h
  rw [dump_of_not_copiesFit hno] at hdump
  cases hdump

/-- Above that, only a buffer of the greatest length and names inside blocks do. -/
theorem copiesFit_iff (names : List StdString) :
    CopiesFit names ↔ (concatNames names).length < 2 ^ 32 ∨
      ((concatNames names).length % 2 ^ 32 = 2 ^ 32 - 1 ∧ InBlocks names) := by
  have hneeded : (neededLength names).toNat = (concatNames names).length % 2 ^ 32 := by
    rw [neededLength_eq, toNat_toU32]
  constructor
  · intro h
    obtain ⟨st, hrun, -, hdump⟩ := exists_dump_of_copiesFit h
    rcases length_lt_of_dump hdump with hlt | htop
    · exact .inl hlt
    · have hlength := foldlM_copyName_length (p := 0) rfl hrun
      rw [List.length_replicate, hneeded, htop] at hlength
      refine .inr ⟨hlength.symm, ?_⟩
      unfold CopiesFit at h
      rw [hneeded, ← hlength] at h
      refine h.imp ?_
      rintro p n ⟨hinside, hfits⟩
      omega
  · rintro (hlt | ⟨htop, hblocks⟩)
    · exact copiesFit_of_lt hlt
    · unfold CopiesFit
      rw [hneeded, htop]
      refine hblocks.imp ?_
      intro p n hn
      constructor <;> omega

end DSYMCreator.StringTable
