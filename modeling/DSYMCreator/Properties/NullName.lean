import DSYMCreator.Tool.TableImages
import DSYMCreator.Tool.StringTable
import DSYMCreator.Tool.FileImage

/-!
# The null name

An entry with `n_strx` zero has no name, whatever bytes stand at the start of the
string table. The table starts with the first name of the list, so that name gets
the null name unless it is empty or is given a later offset by a repetition.
-/
namespace DSYMCreator.SymbolTable

open Binary Binary.Parser StringTable Text

variable {T : AddrType}

/-- The rule of `mach-o/nlist.h`, on the records that a reader takes from the table. -/
def NamedRecordsNonzero (symbols : List (Symbol T)) (table : ByteBuffer) : Prop :=
  ∃ records, (times (MachO.nlist T.is64) symbols.length).value? table = some records ∧
    ∀ p ∈ symbols.zip records, p.1.name ≠ [] → p.2.nStrx ≠ 0

/-- The first name stands at offset zero and its symbol does not refer to it there. -/
def FirstNameHarmless : List StdString → Prop
  | [] => True
  | n :: names => n = [] ∨ n ∈ names

/-- No later name has its last place at a multiple of `2 ^ 32`, where the offset is zero again. -/
def NoNameWraps (names : List StdString) : Prop :=
  ∀ before name after, names = before ++ name :: after → before ≠ [] → name ≠ [] → name ∉ after →
    ¬ 2 ^ 32 ∣ (concatNames before).length

theorem length_concatNames_pos {names : List StdString} (h : names ≠ []) :
    0 < (concatNames names).length := by
  cases names with
  | nil => exact absurd rfl h
  | cons n names =>
    simp only [concatNames_cons, List.length_append, List.length_cons]
    omega

theorem noNameWraps_of_lt {names : List StdString} (h : (concatNames names).length < 2 ^ 32) :
    NoNameWraps names := by
  rintro before name after rfl hbefore - - hdvd
  have hpos := length_concatNames_pos hbefore
  have hle := Nat.le_of_dvd hpos hdvd
  rw [length_concatNames_append] at h
  omega

theorem lastOffset_split {name : StdString} {before after : List StdString} (off : ℕ)
    (hafter : name ∉ after) :
    lastOffset name off (before ++ name :: after) = some (off + (concatNames before).length) := by
  induction before generalizing off with
  | nil =>
    have hnone : lastOffset name (off + (name.length + 1)) after = none := by
      by_contra h
      obtain ⟨o, ho⟩ := Option.ne_none_iff_exists'.mp h
      obtain ⟨b, a, hsplit, -, -⟩ := lastOffset_eq_some ho
      exact hafter (hsplit ▸ by simp)
    simp [lastOffset, hnone]
  | cons n before ih =>
    simp only [List.cons_append, lastOffset, ih]
    simp only [concatNames_cons, List.length_append, List.length_cons]
    congr 1
    omega

theorem toU32_eq_zero_iff (n : ℕ) : toU32 n = 0 ↔ 2 ^ 32 ∣ n := by
  rw [← BitVec.toNat_inj, toNat_toU32]
  exact (Nat.dvd_iff_mod_eq_zero ..).symm

/-- The rule is about the offsets that the map holds for the non-empty names. -/
theorem namedRecordsNonzero_iff_offsets {stack : StackContents} {m : NameToOffset}
    {symbols : List (Symbol T)} {table : ByteBuffer} (h : dump stack symbols m = .ok table) :
    NamedRecordsNonzero symbols table ↔ ∀ s ∈ symbols, s.name ≠ [] → offsetIn m s.name ≠ 0 := by
  obtain ⟨-, rfl⟩ := (dump_eq_ok_iff ..).mp h
  have hzip : symbols.zip (symbols.map fun s => (record (offsetIn m) s).view) =
      symbols.map fun s => (s, (record (offsetIn m) s).view) := by
    have h := List.zip_map' (f := id) (g := fun s => (record (offsetIn m) s).view) (l := symbols)
    rwa [List.map_id] at h
  simp only [NamedRecordsNonzero, value_records, Option.some_inj, exists_eq_left', hzip,
    List.forall_mem_map]
  refine forall₂_congr fun s _ => imp_congr_right fun _ => not_congr ?_
  exact BitVec.toNat_inj (y := 0)

theorem offsets_nonzero_iff {names : List StdString} {r : DumpResult}
    (h : StringTable.dump names = .ok r) :
    (∀ name ∈ names, name ≠ [] → offsetIn r.nameToOffset name ≠ 0) ↔
      ∀ before name after, names = before ++ name :: after → name ≠ [] → name ∉ after →
        ¬ 2 ^ 32 ∣ (concatNames before).length := by
  constructor
  · rintro hall before name after rfl hname hafter hdvd
    apply hall name (by simp) hname
    rw [offsetIn, lookup_of_dump h, lastOffset_split 0 hafter, Option.map_some, Option.getD_some,
      toU32_eq_zero_iff, Nat.zero_add]
    exact hdvd
  · intro hall name hmem hname
    obtain ⟨o, ho⟩ := Option.ne_none_iff_exists'.mp (lastOffset_ne_none 0 hmem)
    obtain ⟨before, after, hsplit, hafter, rfl⟩ := lastOffset_eq_some ho
    rw [offsetIn, lookup_of_dump h, ho, Option.map_some, Option.getD_some, ne_eq,
      toU32_eq_zero_iff, Nat.zero_add]
    exact hall before name after hsplit hname hafter

/-- The place in front of the list is the first name's; the other places are later. -/
theorem nonzero_places_iff (names : List StdString) :
    (∀ before name after, names = before ++ name :: after → name ≠ [] → name ∉ after →
        ¬ 2 ^ 32 ∣ (concatNames before).length) ↔
      FirstNameHarmless names ∧ NoNameWraps names := by
  constructor
  · intro hall
    refine ⟨?_, fun before name after hsplit _ => hall before name after hsplit⟩
    cases names with
    | nil => trivial
    | cons n names =>
      by_contra hfirst
      obtain ⟨hn, hmem⟩ := not_or.mp hfirst
      exact hall [] n names rfl hn hmem (by simp)
  · rintro ⟨hfirst, hwrap⟩ before name after hsplit hname hafter
    cases before with
    | nil =>
      subst hsplit
      exact absurd hfirst (not_or.mpr ⟨hname, hafter⟩)
    | cons n before => exact hwrap (n :: before) name after hsplit (by simp) hname hafter

/-- A named symbol gets the null name in every table except where the first name is empty
or repeated, or the list is empty; from `2 ^ 32` bytes of names on, a wrapped offset is
the other way to get it. -/
theorem namedRecordsNonzero_iff {stack : StackContents} {symbols : List (Symbol T)}
    {r : DumpResult} {table : ByteBuffer}
    (hstrings : StringTable.dump (symbols.map Symbol.name) = .ok r)
    (htable : dump stack symbols r.nameToOffset = .ok table) :
    NamedRecordsNonzero symbols table ↔
      FirstNameHarmless (symbols.map Symbol.name) ∧ NoNameWraps (symbols.map Symbol.name) := by
  rw [namedRecordsNonzero_iff_offsets htable, ← nonzero_places_iff, ← offsets_nonzero_iff hstrings,
    List.forall_mem_map]

theorem tables_exist (stack : StackContents) (symbols : List (Symbol T))
    (hlt : (concatNames (symbols.map Symbol.name)).length < 2 ^ 32) :
    ∃ r table, StringTable.dump (symbols.map Symbol.name) = .ok r ∧
      dump stack symbols r.nameToOffset = .ok table := by
  obtain ⟨m, hdump⟩ := dump_ok hlt
  have hfound : ∀ s ∈ symbols, m.lookup s.name ≠ none := by
    intro s hs
    exact lookup_ne_none hdump (List.mem_map_of_mem hs)
  exact ⟨_, _, hdump, (dump_eq_ok_iff ..).mpr ⟨hfound, rfl⟩⟩

/-- A list of one symbol. -/
def mainOnly : List (Symbol .uint32) := [⟨ascii "main", 0x8001, 0x9001⟩]

theorem namedRecordsNonzero_iff_main : ∃ r table,
    StringTable.dump (mainOnly.map Symbol.name) = .ok r ∧
    dump Macho.clearStack mainOnly r.nameToOffset = .ok table ∧
    (NamedRecordsNonzero mainOnly table ↔
      FirstNameHarmless (mainOnly.map Symbol.name) ∧ NoNameWraps (mainOnly.map Symbol.name)) := by
  obtain ⟨r, table, hstrings, htable⟩ := tables_exist Macho.clearStack mainOnly (by decide)
  exact ⟨r, table, hstrings, htable, namedRecordsNonzero_iff hstrings htable⟩

theorem main_has_null_name : ∃ r table,
    StringTable.dump (mainOnly.map Symbol.name) = .ok r ∧
    dump Macho.clearStack mainOnly r.nameToOffset = .ok table ∧
    ¬ NamedRecordsNonzero mainOnly table := by
  obtain ⟨r, table, hstrings, htable⟩ := tables_exist Macho.clearStack mainOnly (by decide)
  refine ⟨r, table, hstrings, htable, ?_⟩
  intro hrule
  rw [namedRecordsNonzero_iff_offsets htable] at hrule
  apply hrule _ List.mem_cons_self (by decide)
  unfold offsetIn
  rw [lookup_of_dump hstrings]
  decide

end DSYMCreator.SymbolTable
