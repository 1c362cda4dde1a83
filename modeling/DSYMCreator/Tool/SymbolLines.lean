import DSYMCreator.Text.HexNumeral
import DSYMCreator.Tool.ObjcInput

/-!
# The lines that the tool reads

Every text that the tool reads returns one symbol for each line that is not empty,
in order. A field is converted whenever a number of 64 bits stands at its front; a
line is exact when both numbers are numerals as a whole and their values are the
addresses of the symbol.
-/
namespace DSYMCreator

open Text

variable {T : AddrType}

/-- The lines that make a symbol. -/
def symbolLines (content : Bytes) : List Bytes := (content.splitOn newline).filter (· ≠ [])

/-- `stoull` does not throw: a number of 64 bits stands at the front. -/
def Scannable (field : Bytes) : Prop := ∃ n, scanHex field = some n ∧ n.magnitude < 2 ^ 64

/-- The symbol has the values of the first two fields. -/
def Exact (line : Bytes) (s : Symbol T) : Prop :=
  ∃ base fin name, line.splitOn tab = [base, fin, name] ∧
    hexNumeral base = some s.base.toNat ∧ hexNumeral fin = some s.endAddr.toNat

theorem scanHex_cStr (s : Bytes) : scanHex (cStr s) = scanHex s := by
  unfold scanHex cStr
  rw [List.takeWhile_idem]

theorem convert_eq_ok {field : Bytes} {a : Addr T} :
    convert T field = .ok a ↔
      ∃ n, scanHex field = some n ∧ n.magnitude < 2 ^ 64 ∧
        a = (if n.negative then -BitVec.ofNat 64 n.magnitude
          else BitVec.ofNat 64 n.magnitude).setWidth _ := by
  unfold convert stoullTo stoull
  rw [scanHex_cStr]
  cases hscan : scanHex field with
  | none =>
    constructor
    · intro h
      cases h
    · rintro ⟨n, h, -⟩
      cases h
  | some n =>
    by_cases hbig : 2 ^ 64 ≤ n.magnitude
    · simp only [if_pos hbig]
      constructor
      · intro h
        cases h
      · rintro ⟨m, hm, hlt, -⟩
        cases hm
        omega
    · simp only [if_neg hbig]
      constructor
      · intro h
        cases h
        exact ⟨n, rfl, not_le.mp hbig, rfl⟩
      · rintro ⟨m, hm, -, rfl⟩
        cases hm
        rfl

theorem exists_convert_iff {field : Bytes} :
    (∃ a : Addr T, convert T field = .ok a) ↔ Scannable field := by
  constructor
  · rintro ⟨a, h⟩
    obtain ⟨n, hscan, hlt, -⟩ := convert_eq_ok.mp h
    exact ⟨n, hscan, hlt⟩
  · rintro ⟨n, hscan, hlt⟩
    exact ⟨_, convert_eq_ok.mpr ⟨n, hscan, hlt, rfl⟩⟩

theorem width_le (T : AddrType) : 2 ^ (8 * T.size) ≤ 2 ^ 64 := by cases T <;> decide

theorem convert_of_hexNumeral {field : Bytes} {a : Addr T} (h : hexNumeral field = some a.toNat) :
    convert T field = .ok a := by
  have hlt := a.isLt.trans_le (width_le T)
  refine convert_eq_ok.mpr ⟨_, scanHex_of_hexNumeral h, hlt, ?_⟩
  apply BitVec.eq_of_toNat_eq
  rw [if_neg Bool.false_ne_true, BitVec.toNat_setWidth, BitVec.toNat_ofNat, Nat.mod_eq_of_lt hlt,
    Nat.mod_eq_of_lt a.isLt]

theorem readSymbolLine_eq_ok {line : Bytes} {s : Symbol T} :
    readSymbolLine T line = .ok s ↔
      ∃ base fin name, line.splitOn tab = [base, fin, name] ∧ convert T base = .ok s.base ∧
        convert T fin = .ok s.endAddr ∧ s.name = cStr name := by
  unfold readSymbolLine
  constructor
  · intro h
    split at h
    next base fin name hparts =>
      obtain ⟨b, hbase, h⟩ := bind_eq_ok.mp h
      obtain ⟨e, hfin, h⟩ := bind_eq_ok.mp h
      cases h
      exact ⟨base, fin, name, hparts, hbase, hfin, rfl⟩
    next => cases h
  · rintro ⟨base, fin, name, hparts, hbase, hfin, hname⟩
    obtain ⟨n, b, e⟩ := s
    simp only at hbase hfin hname
    simp only [hparts, hbase, hfin, hname]
    rfl

/-- The loop skips empty lines and reads the others one by one. -/
theorem readSymbolLines_eq_ok {lines : List Bytes} {symbols : List (Symbol T)} :
    readSymbolLines T lines = .ok symbols ↔
      List.Forall₂ (fun l s => readSymbolLine T l = .ok s) (lines.filter (· ≠ [])) symbols := by
  induction lines generalizing symbols with
  | nil =>
    rw [List.filter_nil, List.forall₂_nil_left_iff, readSymbolLines, Except.ok.injEq]
    exact eq_comm
  | cons line lines ih =>
    unfold readSymbolLines
    by_cases hline : line = []
    · rw [if_pos hline, ih, List.filter_cons_of_neg (by simpa using hline)]
    · rw [if_neg hline, List.filter_cons_of_pos (by simpa using hline),
        List.forall₂_cons_left_iff, bind_eq_ok]
      constructor
      · rintro ⟨s, hs, h⟩
        obtain ⟨rest, hrest, h⟩ := bind_eq_ok.mp h
        cases h
        exact ⟨s, rest, hs, ih.mp hrest, rfl⟩
      · rintro ⟨s, rest, hs, hrest, rfl⟩
        refine ⟨s, hs, ?_⟩
        rw [ih.mpr hrest]
        rfl

theorem readRawSymbolData_eq_ok {content : Bytes} {symbols : List (Symbol T)} :
    readRawSymbolData T content = .ok symbols ↔ IsUtf8 content ∧
      List.Forall₂ (fun l s => readSymbolLine T l = .ok s) (symbolLines content) symbols := by
  unfold readRawSymbolData
  by_cases hutf : content.toByteArray.IsValidUTF8
  · rw [if_pos hutf, readSymbolLines_eq_ok]
    exact ⟨fun h => ⟨hutf, h⟩, fun h => h.2⟩
  · rw [if_neg hutf]
    constructor
    · intro h
      cases h
    · rintro ⟨h, -⟩
      exact absurd h hutf

/-! ## Texts of lines that are not empty -/

theorem symbolLines_joinWith {lines : List Bytes} (h : ∀ l ∈ lines, newline ∉ l)
    (hne : ∀ l ∈ lines, l ≠ []) : symbolLines (joinWith newline lines) = lines := by
  by_cases hlines : lines = []
  · rw [hlines]
    rfl
  · unfold symbolLines
    rw [splitOn_joinWith h hlines, List.filter_eq_self]
    intro l hl
    exact decide_eq_true (hne l hl)

theorem symbolLines_unlines {lines : List Bytes} (h : ∀ l ∈ lines, newline ∉ l)
    (hne : ∀ l ∈ lines, l ≠ []) : symbolLines (unlines lines) = lines := by
  have hkeep : lines.filter (· ≠ []) = lines := by
    rw [List.filter_eq_self]
    intro l hl
    exact decide_eq_true (hne l hl)
  unfold symbolLines unlines
  rw [splitOn_terminated h, List.filter_append, hkeep]
  exact List.append_nil lines

end DSYMCreator
