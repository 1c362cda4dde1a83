import DSYMCreator.Text.Numerals
import Mathlib.Data.List.Sort

/-!
# Lines and fields

Text is cut at separators and put together again. Splitting a join gives the
parts back when no part contains the separator, and stripping a text gives it
back when it neither starts nor ends with a blank. Lines are ordered bytewise.
-/
namespace Text

def newline : UInt8 := 10
def tab : UInt8 := 9
def blank : UInt8 := 32

/-- The parts joined by a separator. -/
def joinWith (sep : UInt8) (parts : List Bytes) : Bytes := [sep].intercalate parts

/-- The text in front of the first separator and the text behind it. -/
def splitFirst (sep : UInt8) (s : Bytes) : Option (Bytes × Bytes) :=
  match s.dropWhile (· ≠ sep) with
  | [] => none
  | _ :: rest => some (s.takeWhile (· ≠ sep), rest)

/-- The maximal runs without blanks. -/
def words (s : Bytes) : List Bytes := (s.splitOnP isSpace).filter (· ≠ [])

/-- The text without the blanks at its ends. -/
def strip (s : Bytes) : Bytes := ((s.dropWhile isSpace).reverse.dropWhile isSpace).reverse

/-- The lines, each with a newline behind it. -/
def unlines (ls : List Bytes) : Bytes := ls.flatMap (· ++ [newline])

/-- Lines in bytewise order. -/
def sortLines (ls : List Bytes) : List Bytes := ls.insertionSort (· ≤ ·)

theorem splitOn_joinWith {sep : UInt8} {parts : List Bytes} (h : ∀ p ∈ parts, sep ∉ p)
    (hne : parts ≠ []) : (joinWith sep parts).splitOn sep = parts :=
  List.splitOn_intercalate sep h hne

theorem splitOn_terminated {sep : UInt8} {parts : List Bytes} (h : ∀ p ∈ parts, sep ∉ p) :
    (parts.flatMap (· ++ [sep])).splitOn sep = parts ++ [[]] := by
  induction parts with
  | nil => rfl
  | cons p parts ih =>
    have hp := h p List.mem_cons_self
    have hrest := ih fun q hq => h q (List.mem_cons_of_mem p hq)
    rw [List.flatMap_cons, List.append_assoc, List.singleton_append,
      List.splitOn_append_cons_self_of_not_mem hp, hrest]
    rfl

theorem joinWith_cons_cons (sep : UInt8) (p q : Bytes) (parts : List Bytes) :
    joinWith sep (p :: q :: parts) = p ++ sep :: joinWith sep (q :: parts) := by
  simp [joinWith, List.intercalate]

theorem mem_joinWith {sep c : UInt8} {parts : List Bytes} (h : c ∈ joinWith sep parts) :
    c = sep ∨ ∃ p ∈ parts, c ∈ p := by
  induction parts with
  | nil => cases h
  | cons p parts ih =>
    cases parts with
    | nil => exact .inr ⟨p, List.mem_cons_self, by simpa [joinWith] using h⟩
    | cons q parts =>
      rw [joinWith_cons_cons, List.mem_append, List.mem_cons] at h
      rcases h with h | rfl | h
      · exact .inr ⟨p, List.mem_cons_self, h⟩
      · exact .inl rfl
      · rcases ih h with rfl | ⟨r, hr, hc⟩
        · exact .inl rfl
        · exact .inr ⟨r, List.mem_cons_of_mem p hr, hc⟩

theorem splitFirst_append {sep : UInt8} {s : Bytes} (hs : sep ∉ s) (rest : Bytes) :
    splitFirst sep (s ++ sep :: rest) = some (s, rest) := by
  have hall : ∀ c ∈ s, decide (c ≠ sep) = true := by
    intro c hc
    exact decide_eq_true fun he => hs (he ▸ hc)
  have hdrop : (s ++ sep :: rest).dropWhile (· ≠ sep) = sep :: rest := by
    rw [List.dropWhile_append_of_pos hall, List.dropWhile_cons_of_neg (by simp)]
  have htake : (s ++ sep :: rest).takeWhile (· ≠ sep) = s := by
    rw [List.takeWhile_append_of_pos hall, List.takeWhile_cons_of_neg (by simp), List.append_nil]
  unfold splitFirst
  rw [hdrop, htake]

/-! ## Blanks at the ends -/

/-- A text that has something in it and blanks at neither end. -/
structure Trimmed (s : Bytes) : Prop where
  ne_nil : s ≠ []
  first : ∀ c ∈ s.head?, isSpace c = false
  last : ∀ c ∈ s.getLast?, isSpace c = false

theorem Trimmed.append {p q : Bytes} (hp : Trimmed p) (m : Bytes) (hq : Trimmed q) :
    Trimmed (p ++ m ++ q) where
  ne_nil := by
    intro h
    exact hq.ne_nil (List.append_eq_nil_iff.mp h).2
  first := by
    intro c hc
    obtain ⟨d, ds, rfl⟩ := List.exists_cons_of_ne_nil hp.ne_nil
    exact hp.first c (by simpa using hc)
  last := by
    intro c hc
    rw [List.getLast?_append_of_ne_nil _ hq.ne_nil] at hc
    exact hq.last c hc

theorem trimmed_joinWith {sep : UInt8} {parts : List Bytes} (h : ∀ p ∈ parts, Trimmed p)
    (hne : parts ≠ []) : Trimmed (joinWith sep parts) := by
  induction parts with
  | nil => exact absurd rfl hne
  | cons p parts ih =>
    have hp := h p List.mem_cons_self
    cases parts with
    | nil => simpa [joinWith] using hp
    | cons q parts =>
      have hrest := ih (fun x hx => h x (List.mem_cons_of_mem p hx)) (by simp)
      rw [joinWith_cons_cons]
      simpa using hp.append [sep] hrest

theorem strip_append {s blanks : Bytes} (hs : Trimmed s) (hblanks : ∀ c ∈ blanks, isSpace c = true) :
    strip (s ++ blanks) = s := by
  obtain ⟨c, cs, rfl⟩ := List.exists_cons_of_ne_nil hs.ne_nil
  have hfirst := hs.first c (by simp)
  have hfront : (c :: cs ++ blanks).dropWhile isSpace = c :: cs ++ blanks := by
    rw [List.cons_append, List.dropWhile_cons_of_neg (by simp [hfirst])]
  have hback : (c :: cs).reverse.dropWhile isSpace = (c :: cs).reverse := by
    cases hrev : (c :: cs).reverse with
    | nil => rfl
    | cons d ds =>
      have hd : isSpace d = false := by
        apply hs.last
        rw [← List.head?_reverse, hrev]
        rfl
      rw [List.dropWhile_cons_of_neg (by simp [hd])]
  rw [strip, hfront, List.reverse_append,
    List.dropWhile_append_of_pos (fun d hd => hblanks d (List.mem_reverse.mp hd)), hback,
    List.reverse_reverse]

theorem unlines_eq {ls : List Bytes} (h : ls ≠ []) :
    unlines ls = joinWith newline ls ++ [newline] := by
  induction ls with
  | nil => exact absurd rfl h
  | cons l ls ih =>
    cases ls with
    | nil => simp [unlines, joinWith]
    | cons l' ls =>
      have hrest := ih (by simp)
      rw [joinWith_cons_cons, List.append_assoc, List.cons_append, ← hrest]
      simp [unlines]

theorem strip_unlines {ls : List Bytes} (h : ∀ l ∈ ls, Trimmed l) (hne : ls ≠ []) :
    strip (unlines ls) = joinWith newline ls := by
  rw [unlines_eq hne]
  apply strip_append (trimmed_joinWith h hne)
  intro c hc
  rw [List.mem_singleton.mp hc]
  decide

/-! ## The order of lines -/

theorem sortLines_pairwise (ls : List Bytes) : (sortLines ls).Pairwise (· ≤ ·) :=
  List.pairwise_insertionSort ..

/-- Digit strings of one length are ordered as their numbers, whatever follows them. -/
theorem digits_lt_of_lt {ds es : List ℕ} (hds : ∀ d ∈ ds, d < 16) (hes : ∀ e ∈ es, e < 16)
    (hlen : ds.length = es.length) (h : ofDigits ds < ofDigits es) (r r' : Bytes) :
    ds.map hexDigit ++ r < es.map hexDigit ++ r' := by
  induction ds generalizing es with
  | nil =>
    obtain rfl := List.eq_nil_of_length_eq_zero hlen.symm
    exact absurd h (lt_irrefl _)
  | cons d ds ih =>
    obtain ⟨e, es, rfl⟩ := List.exists_cons_of_length_eq_add_one hlen.symm
    have hd := hds d List.mem_cons_self
    have he := hes e List.mem_cons_self
    have hds' : ∀ x ∈ ds, x < 16 := fun x hx => hds x (List.mem_cons_of_mem d hx)
    have hes' : ∀ x ∈ es, x < 16 := fun x hx => hes x (List.mem_cons_of_mem e hx)
    have hlen' : ds.length = es.length := by simpa using hlen
    rw [ofDigits_cons, ofDigits_cons, hlen'] at h
    have hlt := ofDigits_lt hds'
    have hlt' := ofDigits_lt hes'
    rw [hlen'] at hlt
    rw [List.map_cons, List.map_cons, List.cons_append, List.cons_append, List.cons_lt_cons_iff]
    rcases Nat.lt_trichotomy d e with hde | rfl | hde
    · exact .inl ((hexDigit_lt_iff hd he).mpr hde)
    · exact .inr ⟨rfl, ih hds' hes' hlen' (by omega)⟩
    · have hmul : (e + 1) * 16 ^ es.length ≤ d * 16 ^ es.length := Nat.mul_le_mul_right _ hde
      rw [Nat.add_mul, Nat.one_mul] at hmul
      omega

end Text
