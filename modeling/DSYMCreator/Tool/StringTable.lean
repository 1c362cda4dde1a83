import DSYMCreator.Tool.Basic
import DSYMCreator.Binary.Slices

/-!
# The string table

`StringTable::dump` sizes the buffer in a first pass over the names and copies
each name to the running offset in a second pass. Both sums are `uint32_t`; the
terminating zeros are bytes that `resize` cleared and no copy touches.
-/
namespace DSYMCreator

open Binary

namespace StringTable

structure DumpResult where
  buffer : ByteBuffer
  nameToOffset : NameToOffset

/-- First loop: `needed_length += n.size() + 1`. -/
def neededLength (names : List StdString) : BitVec 32 :=
  names.foldl (fun needed n => needed + toU32 (n.length + 1)) 0

/-- `memcpy(&buffer[off], src)`: the element has to exist and the copy has to stay inside. -/
def memcpyAt (buffer : ByteBuffer) (off : ℕ) (src : StdString) : Except Failure ByteBuffer :=
  if off < buffer.length ∧ off + src.length ≤ buffer.length then
    .ok (buffer.take off ++ src ++ buffer.drop (off + src.length))
  else .error .outOfBounds

/-- The variables of the second loop. -/
structure LoopState where
  result : DumpResult
  currentOffset : BitVec 32

/-- One iteration of the second loop. -/
def copyName (st : LoopState) (n : StdString) : Except Failure LoopState := do
  let nameToOffset := st.result.nameToOffset.insert n st.currentOffset
  let buffer ← memcpyAt st.result.buffer st.currentOffset.toNat n
  let currentOffset := st.currentOffset + toU32 n.length
  return ⟨⟨buffer, nameToOffset⟩, currentOffset + 1⟩

def dump (names : List StdString) : Except Failure DumpResult := do
  let needed := neededLength names
  let init : LoopState := ⟨⟨List.replicate needed.toNat 0, ∅⟩, 0⟩
  let st ← names.foldlM copyName init
  cAssert (st.currentOffset = needed) .stringTableLength
  return st.result

/-! ## What a run leaves behind -/

/-- The names, each with its terminator, end to end. -/
def concatNames (names : List StdString) : ByteBuffer := names.flatMap fun n => n ++ [0]

@[simp] theorem concatNames_nil : concatNames [] = [] := rfl

@[simp] theorem concatNames_cons (n : StdString) (names : List StdString) :
    concatNames (n :: names) = n ++ 0 :: concatNames names := by
  simp [concatNames]

theorem length_concatNames_append (names names' : List StdString) :
    (concatNames (names ++ names')).length =
      (concatNames names).length + (concatNames names').length := by
  simp [concatNames]

theorem length_concatNames (names : List StdString) :
    (concatNames names).length = (names.map fun n => n.length + 1).sum := by
  induction names with
  | nil => rfl
  | cons n names ih =>
    simp only [concatNames_cons, List.length_append, List.length_cons, List.map_cons, List.sum_cons,
      ih]
    omega

/-- Where the last occurrence of `name` starts, the list itself starting at `off`. -/
def lastOffset (name : StdString) : ℕ → List StdString → Option ℕ
  | _, [] => none
  | off, n :: names =>
    match lastOffset name (off + (n.length + 1)) names with
    | some o => some o
    | none => if n = name then some off else none

theorem neededLength_from (names : List StdString) (needed : BitVec 32) :
    names.foldl (fun needed n => needed + toU32 (n.length + 1)) needed =
      needed + toU32 (concatNames names).length := by
  induction names generalizing needed with
  | nil => simp [toU32]
  | cons n names ih =>
    rw [List.foldl_cons, ih, BitVec.add_assoc, toU32_add]
    congr 2
    simp only [concatNames_cons, List.length_append, List.length_cons]
    omega

/-- The first pass computes the length of the names with their terminators, modulo `2 ^ 32`. -/
theorem neededLength_eq (names : List StdString) :
    neededLength names = toU32 (concatNames names).length := by
  unfold neededLength
  rw [neededLength_from]
  simp

theorem memcpyAt_cleared (before : ByteBuffer) (n : StdString) (k : ℕ) :
    memcpyAt (before ++ List.replicate (n.length + 1 + k) 0) before.length n =
      .ok (before ++ n ++ 0 :: List.replicate k 0) := by
  have hdrop : (before ++ List.replicate (n.length + 1 + k) (0 : UInt8)).drop
      (before.length + n.length) = 0 :: List.replicate k 0 := by
    rw [List.drop_append, List.drop_replicate, List.drop_eq_nil_of_le (by omega)]
    rw [show n.length + 1 + k - (before.length + n.length - before.length) = k + 1 by omega]
    simp [List.replicate_succ]
  unfold memcpyAt
  rw [if_pos (by simp only [List.length_append, List.length_replicate]; omega), hdrop]
  simp

/-- `current_offset` after the two additions of one iteration. -/
theorem next_offset (p : ℕ) (n : StdString) :
    toU32 p + toU32 n.length + 1 = toU32 (p + (n.length + 1)) := by
  rw [show (1 : BitVec 32) = toU32 1 from rfl, toU32_add, toU32_add, Nat.add_assoc]

/-- One iteration: the name takes the next bytes, the offset moves behind its terminator. -/
theorem copyName_ok {st : LoopState} {before : ByteBuffer} {n : StdString} {k : ℕ}
    (hbuffer : st.result.buffer = before ++ List.replicate (n.length + 1 + k) 0)
    (hoffset : st.currentOffset = toU32 before.length) (hlt : before.length < 2 ^ 32) :
    copyName st n = .ok ⟨⟨before ++ n ++ 0 :: List.replicate k 0,
      st.result.nameToOffset.insert n (toU32 before.length)⟩,
      toU32 (before.length + (n.length + 1))⟩ := by
  have hnat := toNat_toU32_of_lt hlt
  have hnext := next_offset before.length n
  simp only [copyName, hbuffer, hoffset, hnat, memcpyAt_cleared, hnext]
  rfl

/-- The bytes of the second pass, from a state whose written bytes are `before`. -/
theorem foldlM_copyName_ok {names : List StdString} {st : LoopState} {before : ByteBuffer}
    (hbuffer : st.result.buffer =
      before ++ List.replicate (concatNames names).length 0)
    (hoffset : st.currentOffset = toU32 before.length)
    (hlt : before.length + (concatNames names).length < 2 ^ 32) :
    ∃ m : NameToOffset, names.foldlM copyName st =
      .ok ⟨⟨before ++ concatNames names, m⟩, toU32 (before.length + (concatNames names).length)⟩ := by
  induction names generalizing st before with
  | nil =>
    obtain ⟨⟨buffer, m⟩, offset⟩ := st
    simp only [concatNames_nil, List.length_nil, List.replicate_zero, List.append_nil] at hbuffer
    subst hbuffer hoffset
    exact ⟨m, by simp; rfl⟩
  | cons n names ih =>
    have hlen : (concatNames (n :: names)).length = n.length + 1 + (concatNames names).length := by
      simp only [concatNames_cons, List.length_append, List.length_cons]
      omega
    rw [hlen] at hbuffer hlt
    have hstep := copyName_ok hbuffer hoffset (by omega)
    have hbefore : (before ++ n ++ [0]).length = before.length + (n.length + 1) := by
      simp only [List.length_append, List.length_singleton]
      omega
    let next : LoopState := ⟨⟨before ++ n ++ 0 :: List.replicate (concatNames names).length 0,
      st.result.nameToOffset.insert n (toU32 before.length)⟩,
      toU32 (before.length + (n.length + 1))⟩
    have hnext : next.result.buffer =
        before ++ n ++ [0] ++ List.replicate (concatNames names).length 0 := by simp [next]
    obtain ⟨m, hrun⟩ := ih hnext (by rw [hbefore]) (by rw [hbefore]; omega)
    refine ⟨m, ?_⟩
    rw [List.foldlM_cons, hstep, ok_bind, hrun, hbefore, hlen]
    simp [Nat.add_assoc]

theorem memcpyAt_eq_ok {buffer result : ByteBuffer} {off : ℕ} {src : StdString}
    (h : memcpyAt buffer off src = .ok result) :
    off + src.length ≤ buffer.length ∧ result.length = buffer.length := by
  unfold memcpyAt at h
  split_ifs at h with hbound
  cases h
  refine ⟨hbound.2, ?_⟩
  simp only [List.length_append, List.length_take, List.length_drop]
  omega

/-- What an iteration that succeeds knows and does, at the true offset `p`. -/
structure Copied (p : ℕ) (n : StdString) (st st' : LoopState) : Prop where
  bound : p % 2 ^ 32 + n.length ≤ st.result.buffer.length
  length : st'.result.buffer.length = st.result.buffer.length
  offset : st'.currentOffset = toU32 (p + (n.length + 1))
  map : st'.result.nameToOffset = st.result.nameToOffset.insert n (toU32 p)

theorem copyName_eq_ok {st st' : LoopState} {n : StdString} {p : ℕ}
    (hoffset : st.currentOffset = toU32 p) (h : copyName st n = .ok st') : Copied p n st st' := by
  obtain ⟨buffer, hcopy, hst⟩ := bind_eq_ok.mp h
  rw [hoffset, toNat_toU32] at hcopy
  obtain ⟨hbound, hlength⟩ := memcpyAt_eq_ok hcopy
  cases hst
  rw [hoffset]
  exact ⟨hbound, hlength, next_offset p n, rfl⟩

/-- As long as every copy stays inside a buffer shorter than `2 ^ 32 - 1`, the offset
has not wrapped: it is the true number of bytes passed. -/
theorem foldlM_copyName_bound {names : List StdString} {st st' : LoopState} {p : ℕ}
    (hoffset : st.currentOffset = toU32 p) (hp : p < 2 ^ 32)
    (hbuffer : st.result.buffer.length < 2 ^ 32 - 1)
    (h : names.foldlM copyName st = .ok st') : p + (concatNames names).length < 2 ^ 32 := by
  induction names generalizing st p with
  | nil => simpa using hp
  | cons n names ih =>
    obtain ⟨next, hcopy, hrun⟩ := foldlM_cons_eq_ok.mp h
    have hstep := copyName_eq_ok hoffset hcopy
    have hbound := hstep.bound
    have hlength := hstep.length
    rw [Nat.mod_eq_of_lt hp] at hbound
    have hrest := ih hstep.offset (by omega) (by omega) hrun
    simp only [concatNames_cons, List.length_append, List.length_cons]
    omega

theorem foldlM_copyName_length {names : List StdString} {st st' : LoopState} {p : ℕ}
    (hoffset : st.currentOffset = toU32 p) (h : names.foldlM copyName st = .ok st') :
    st'.result.buffer.length = st.result.buffer.length := by
  induction names generalizing st p with
  | nil => cases h; rfl
  | cons n names ih =>
    obtain ⟨next, hcopy, hrun⟩ := foldlM_cons_eq_ok.mp h
    have hstep := copyName_eq_ok hoffset hcopy
    rw [ih hstep.offset hrun, hstep.length]

/-- The map after a run, wrapped or not: the last occurrence of a name decides. -/
theorem foldlM_copyName_lookup {names : List StdString} {st st' : LoopState} {p : ℕ}
    (hoffset : st.currentOffset = toU32 p) (h : names.foldlM copyName st = .ok st')
    (name : StdString) :
    st'.result.nameToOffset.lookup name =
      match lastOffset name p names with
      | some o => some (toU32 o)
      | none => st.result.nameToOffset.lookup name := by
  induction names generalizing st p with
  | nil => cases h; rfl
  | cons n names ih =>
    obtain ⟨next, hcopy, hrun⟩ := foldlM_cons_eq_ok.mp h
    have hstep := copyName_eq_ok hoffset hcopy
    rw [ih hstep.offset hrun, lastOffset, hstep.map]
    cases lastOffset name (p + (n.length + 1)) names with
    | some o => rfl
    | none =>
      by_cases hname : n = name
      · subst hname
        simp
      · simp [hname, AList.lookup_insert_ne (Ne.symm hname)]

theorem lookup_of_dump {names : List StdString} {r : DumpResult} (h : dump names = .ok r)
    (name : StdString) : r.nameToOffset.lookup name = (lastOffset name 0 names).map toU32 := by
  obtain ⟨st, hrun, hcheck⟩ := bind_eq_ok.mp h
  obtain ⟨-, -, hr⟩ := bind_eq_ok.mp hcheck
  cases hr
  rw [foldlM_copyName_lookup (p := 0) rfl hrun]
  cases lastOffset name 0 names <;> rfl

theorem dump_ok {names : List StdString} (hlt : (concatNames names).length < 2 ^ 32) :
    ∃ m : NameToOffset, dump names = .ok ⟨concatNames names, m⟩ := by
  have hneeded : (neededLength names).toNat = (concatNames names).length := by
    rw [neededLength_eq, toNat_toU32_of_lt hlt]
  let init : LoopState := ⟨⟨List.replicate (neededLength names).toNat 0, ∅⟩, 0⟩
  have hinit : init.result.buffer = [] ++ List.replicate (concatNames names).length 0 := by
    simp [init, hneeded]
  obtain ⟨m, hrun⟩ := foldlM_copyName_ok hinit rfl (by simpa using hlt)
  refine ⟨m, ?_⟩
  have hcheck : cAssert (toU32 (concatNames names).length = neededLength names)
      .stringTableLength = .ok () := by
    rw [cAssert_eq_ok, neededLength_eq]
  simp only [init, List.nil_append, List.length_nil, Nat.zero_add] at hrun
  simp only [dump, hrun, ok_bind, hcheck]
  rfl

/-- A run that returns has laid out all names, or its buffer has the one length at
which a name can push the offset over the top without leaving the buffer. -/
theorem length_lt_of_dump {names : List StdString} {r : DumpResult} (h : dump names = .ok r) :
    (concatNames names).length < 2 ^ 32 ∨ r.buffer.length = 2 ^ 32 - 1 := by
  obtain ⟨st, hrun, hcheck⟩ := bind_eq_ok.mp h
  obtain ⟨-, -, hr⟩ := bind_eq_ok.mp hcheck
  cases hr
  have hneeded := (neededLength names).isLt
  have hlength := foldlM_copyName_length (p := 0) rfl hrun
  rw [List.length_replicate] at hlength
  by_cases htop : (neededLength names).toNat < 2 ^ 32 - 1
  · left
    have hbound := foldlM_copyName_bound (p := 0) rfl (by norm_num)
      (by rwa [List.length_replicate]) hrun
    omega
  · right
    rw [hlength]
    omega

theorem lastOffset_ne_none {name : StdString} {names : List StdString} (off : ℕ)
    (h : name ∈ names) : lastOffset name off names ≠ none := by
  induction names generalizing off with
  | nil => simp at h
  | cons n names ih =>
    unfold lastOffset
    rcases List.mem_cons.mp h with rfl | hmem
    · cases lastOffset name (off + (name.length + 1)) names <;> simp
    · obtain ⟨o, ho⟩ := Option.ne_none_iff_exists'.mp (ih (off + (n.length + 1)) hmem)
      simp [ho]

theorem lookup_ne_none {names : List StdString} {r : DumpResult} (h : dump names = .ok r)
    {name : StdString} (hname : name ∈ names) : r.nameToOffset.lookup name ≠ none := by
  rw [lookup_of_dump h, ne_eq, Option.map_eq_none_iff]
  exact lastOffset_ne_none 0 hname

theorem lastOffset_eq_some {name : StdString} {off o : ℕ} {names : List StdString}
    (h : lastOffset name off names = some o) :
    ∃ before after, names = before ++ name :: after ∧ name ∉ after ∧
      o = off + (concatNames before).length := by
  induction names generalizing off with
  | nil => simp [lastOffset] at h
  | cons n names ih =>
    rw [lastOffset] at h
    cases hrest : lastOffset name (off + (n.length + 1)) names with
    | some o' =>
      rw [hrest] at h
      cases h
      obtain ⟨before, after, rfl, hafter, ho⟩ := ih hrest
      refine ⟨n :: before, after, rfl, hafter, ?_⟩
      simp only [concatNames_cons, List.length_append, List.length_cons, ho]
      omega
    | none =>
      rw [hrest] at h
      by_cases hn : n = name
      · simp only [hn, if_true, Option.some_inj] at h
        exact ⟨[], names, by rw [hn]; rfl, fun hmem => lastOffset_ne_none _ hmem hrest, by simp [h]⟩
      · simp [hn] at h

theorem lastOffset_occursAt {name : StdString} {o : ℕ} {names : List StdString}
    (h : lastOffset name 0 names = some o) : OccursAt (concatNames names) o (name ++ [0]) := by
  obtain ⟨before, after, rfl, -, rfl⟩ := lastOffset_eq_some h
  exact ⟨concatNames before, concatNames after, by simp [concatNames], by simp⟩

end StringTable
end DSYMCreator
