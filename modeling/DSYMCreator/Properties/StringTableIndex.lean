import DSYMCreator.Text.Lines
import DSYMCreator.Tool.StringTable
import Mathlib.Data.List.Dedup

/-!
# The string table and its index

The buffer of the string table is the names with a NUL behind each, so cutting it
at the NULs gives the names back. The map has one offset for each distinct name,
the start of its last occurrence; starts of names are never inside another name.
-/
namespace DSYMCreator.StringTable

open Text

/-- The map of a list of names. -/
structure CanonicalIndex (names : List StdString) (m : NameToOffset) : Prop where
  keys : m.keys.Perm names.dedup
  last : ∀ n ∈ names, ∃ before after o, names = before ++ n :: after ∧ n ∉ after ∧
    m.lookup n = some o ∧ o.toNat = (concatNames before).length
  distinct : ∀ n n' o, m.lookup n = some o → m.lookup n' = some o → n = n'
  notInside : ∀ n o, m.lookup n = some o → ∀ before n' after, names = before ++ n' :: after →
    o.toNat ≤ (concatNames before).length ∨ (concatNames before).length + n'.length < o.toNat

theorem places_ordered {before after before' after' : List StdString} {n n' : StdString}
    (h : before ++ n :: after = before' ++ n' :: after') :
    (before = before' ∧ n = n') ∨
      (concatNames before).length + n.length < (concatNames before').length ∨
      (concatNames before').length + n'.length < (concatNames before).length := by
  rcases List.append_eq_append_iff.mp h with ⟨mid, hbefore, hmid⟩ | ⟨mid, hbefore, hmid⟩
  · rcases mid with _ | ⟨x, mid⟩
    · rw [List.append_nil] at hbefore
      exact .inl ⟨hbefore.symm, (List.cons.inj hmid).1⟩
    · obtain rfl := (List.cons.inj hmid).1
      right
      left
      rw [hbefore, length_concatNames_append, concatNames_cons, List.length_append, List.length_cons]
      omega
  · rcases mid with _ | ⟨x, mid⟩
    · rw [List.append_nil] at hbefore
      exact .inl ⟨hbefore, (List.cons.inj hmid).1.symm⟩
    · obtain rfl := (List.cons.inj hmid).1
      right
      right
      rw [hbefore, length_concatNames_append, concatNames_cons, List.length_append, List.length_cons]
      omega

section

variable {names : List StdString} {r : DumpResult}

theorem lookup_eq_some (h : dump names = .ok r) (hlt : (concatNames names).length < 2 ^ 32)
    {n : StdString} {o : BitVec 32} (ho : r.nameToOffset.lookup n = some o) :
    ∃ before after, names = before ++ n :: after ∧ n ∉ after ∧
      o.toNat = (concatNames before).length := by
  rw [lookup_of_dump h, Option.map_eq_some_iff] at ho
  obtain ⟨p, hp, rfl⟩ := ho
  obtain ⟨before, after, rfl, hafter, rfl⟩ := lastOffset_eq_some hp
  rw [length_concatNames_append] at hlt
  refine ⟨before, after, rfl, hafter, ?_⟩
  rw [Nat.zero_add, toNat_toU32_of_lt (by omega)]

theorem mem_keys_iff (h : dump names = .ok r) (n : StdString) :
    n ∈ r.nameToOffset.keys ↔ n ∈ names := by
  rw [← AList.mem_keys, ← AList.lookup_isSome, Option.isSome_iff_ne_none]
  constructor
  · intro hn
    rw [lookup_of_dump h, ne_eq, Option.map_eq_none_iff] at hn
    obtain ⟨p, hp⟩ := Option.ne_none_iff_exists'.mp hn
    obtain ⟨before, after, rfl, -, -⟩ := lastOffset_eq_some hp
    simp
  · exact lookup_ne_none h

theorem canonicalIndex_of_dump (h : dump names = .ok r)
    (hlt : (concatNames names).length < 2 ^ 32) : CanonicalIndex names r.nameToOffset where
  keys := by
    rw [List.perm_ext_iff_of_nodup r.nameToOffset.keys_nodup names.nodup_dedup]
    intro n
    rw [mem_keys_iff h, List.mem_dedup]
  last := by
    intro n hn
    obtain ⟨o, ho⟩ := Option.ne_none_iff_exists'.mp (lookup_ne_none h hn)
    obtain ⟨before, after, hnames, hafter, hoffset⟩ := lookup_eq_some h hlt ho
    exact ⟨before, after, o, hnames, hafter, ho, hoffset⟩
  distinct := by
    intro n n' o ho ho'
    obtain ⟨before, after, hnames, -, hoffset⟩ := lookup_eq_some h hlt ho
    obtain ⟨before', after', hnames', -, hoffset'⟩ := lookup_eq_some h hlt ho'
    rcases places_ordered (hnames.symm.trans hnames') with ⟨-, hn⟩ | hlt | hlt
    · exact hn
    · omega
    · omega
  notInside := by
    intro n o ho before' n' after' hnames'
    obtain ⟨before, after, hnames, -, hoffset⟩ := lookup_eq_some h hlt ho
    rcases places_ordered (hnames.symm.trans hnames') with ⟨hbefore, -⟩ | hlt | hlt
    · exact .inl (by rw [hoffset, hbefore])
    · exact .inl (by omega)
    · exact .inr (by omega)

/-- The buffer of NUL-free names is cut into the names, and the map is their index. -/
theorem stringTable_lossless (names : List StdString) (hnul : ∀ n ∈ names, 0 ∉ n)
    (hlt : (names.map fun n => n.length + 1).sum < 2 ^ 32) :
    ∃ r, dump names = .ok r ∧ r.buffer.splitOn 0 = names ++ [[]] ∧
      CanonicalIndex names r.nameToOffset := by
  rw [← length_concatNames] at hlt
  obtain ⟨m, hdump⟩ := dump_ok hlt
  exact ⟨_, hdump, splitOn_terminated hnul, canonicalIndex_of_dump hdump hlt⟩

/-- Names that repeat, an empty one among them and an empty one at the end. -/
theorem stringTable_lossless_repeated : ∃ r,
    dump [[], ascii "ab", [], ascii "ab", []] = .ok r ∧
      r.buffer.splitOn 0 = [[], ascii "ab", [], ascii "ab", []] ++ [[]] ∧
      CanonicalIndex [[], ascii "ab", [], ascii "ab", []] r.nameToOffset :=
  stringTable_lossless _ (by decide) (by decide)

end

end DSYMCreator.StringTable
