import DSYMCreator.Order.Related
import DSYMCreator.Tool.SymbolLines

/-!
# When accepted text is read exactly

The tool accepts a text as soon as every number field starts with a number of 64
bits. Characters behind that number are ignored, a minus wraps it, and the cast to
`T` cuts it, so an accepted text is read exactly only if its fields are numerals as
a whole that fit `T`.
-/
namespace DSYMCreator

open Text Related

variable {T : AddrType}

/-- What the tool accepts. -/
structure Accepted (content : Bytes) : Prop where
  utf8 : IsUtf8 content
  fields : ∀ line ∈ symbolLines content, ∃ base fin name, line.splitOn tab = [base, fin, name] ∧
    Scannable base ∧ Scannable fin

/-- The two number fields of a line are numerals of `T`. -/
def ExactFields (T : AddrType) (line : Bytes) : Prop :=
  ∀ field ∈ (line.splitOn tab).take 2, ∃ v, hexNumeral field = some v ∧ v < 2 ^ (8 * T.size)

/-- A list that is returned has one symbol for each line, with the values of its fields. -/
def ReadsExactly (T : AddrType) (content : Bytes) : Prop :=
  ∀ symbols : List (Symbol T), readRawSymbolData T content = .ok symbols →
    List.Forall₂ Exact (symbolLines content) symbols

theorem exists_readSymbolLine_iff {line : Bytes} :
    (∃ s : Symbol T, readSymbolLine T line = .ok s) ↔ ∃ base fin name,
      line.splitOn tab = [base, fin, name] ∧ Scannable base ∧ Scannable fin := by
  constructor
  · rintro ⟨s, hs⟩
    obtain ⟨base, fin, name, hparts, hbase, hfin, -⟩ := readSymbolLine_eq_ok.mp hs
    exact ⟨base, fin, name, hparts, exists_convert_iff.mp ⟨_, hbase⟩, exists_convert_iff.mp ⟨_, hfin⟩⟩
  · rintro ⟨base, fin, name, hparts, hbase, hfin⟩
    obtain ⟨b, hb⟩ := exists_convert_iff.mpr hbase
    obtain ⟨e, he⟩ := exists_convert_iff.mpr hfin
    exact ⟨⟨cStr name, b, e⟩, readSymbolLine_eq_ok.mpr ⟨base, fin, name, hparts, hb, he, rfl⟩⟩

theorem exists_readRawSymbolData_iff {content : Bytes} :
    (∃ symbols : List (Symbol T), readRawSymbolData T content = .ok symbols) ↔ Accepted content := by
  constructor
  · rintro ⟨symbols, h⟩
    obtain ⟨hutf, hlines⟩ := readRawSymbolData_eq_ok.mp h
    refine ⟨hutf, ?_⟩
    intro line hline
    exact exists_readSymbolLine_iff.mp (exists_of_mem_left hlines line hline)
  · rintro ⟨hutf, hfields⟩
    obtain ⟨symbols, hsymbols⟩ := exists_forall₂ fun line hline =>
      exists_readSymbolLine_iff (T := T).mpr (hfields line hline)
    exact ⟨symbols, readRawSymbolData_eq_ok.mpr ⟨hutf, hsymbols⟩⟩

theorem toNat_of_convert {field : Bytes} {a : Addr T} {v : ℕ} (h : convert T field = .ok a)
    (hfield : hexNumeral field = some v) (hv : v < 2 ^ (8 * T.size)) :
    hexNumeral field = some a.toNat := by
  have hnat : (BitVec.ofNat (8 * T.size) v).toNat = v := by
    rw [BitVec.toNat_ofNat, Nat.mod_eq_of_lt hv]
  have hconvert := convert_of_hexNumeral (T := T) (a := BitVec.ofNat _ v) (by rw [hnat, hfield])
  rw [hconvert, Except.ok.injEq] at h
  rw [← h, hnat, hfield]

theorem exact_of_readSymbolLine {line : Bytes} {s : Symbol T} (h : readSymbolLine T line = .ok s)
    (hfields : ExactFields T line) : Exact line s := by
  obtain ⟨base, fin, name, hparts, hbase, hfin, -⟩ := readSymbolLine_eq_ok.mp h
  unfold ExactFields at hfields
  rw [hparts] at hfields
  obtain ⟨v, hv, hvlt⟩ := hfields base (by simp)
  obtain ⟨w, hw, hwlt⟩ := hfields fin (by simp)
  exact ⟨base, fin, name, hparts, toNat_of_convert hbase hv hvlt, toNat_of_convert hfin hw hwlt⟩

theorem exactFields_of_exact {line : Bytes} {s : Symbol T} (h : Exact line s) :
    ExactFields T line := by
  obtain ⟨base, fin, name, hparts, hbase, hfin⟩ := h
  unfold ExactFields
  rw [hparts]
  intro field hfield
  simp only [List.take_succ_cons, List.take_zero, List.mem_cons, List.not_mem_nil, or_false] at hfield
  rcases hfield with rfl | rfl
  · exact ⟨_, hbase, s.base.isLt⟩
  · exact ⟨_, hfin, s.endAddr.isLt⟩

/-- A text is read exactly unless it is accepted with a field that is no numeral of `T`. -/
theorem readsExactly_iff (T : AddrType) (content : Bytes) :
    ReadsExactly T content ↔
      (Accepted content → ∀ line ∈ symbolLines content, ExactFields T line) := by
  constructor
  · intro h haccepted line hline
    obtain ⟨symbols, hread⟩ := exists_readRawSymbolData_iff.mpr haccepted
    obtain ⟨s, hs⟩ := exists_of_mem_left (h symbols hread) line hline
    exact exactFields_of_exact hs
  · intro h symbols hread
    have hfields := h (exists_readRawSymbolData_iff.mp ⟨symbols, hread⟩)
    have hlines := (readRawSymbolData_eq_ok.mp hread).2
    exact imp_of_forall_left hlines hfields fun line s hs hread => exact_of_readSymbolLine hread hs

/-- The start has 33 bits and the end a sign. -/
def narrowedLine : Bytes := joinWith tab [ascii "0x100000001", ascii "-1", ascii "f"]

theorem narrowedLine_not_exact : ¬ ReadsExactly .uint32 narrowedLine := by
  intro h
  have hutf : IsUtf8 narrowedLine := by
    have hascii : narrowedLine.all (· < 128) = true := by decide
    exact isUtf8_of_ascii fun c hc => of_decide_eq_true (List.all_eq_true.mp hascii c hc)
  have hlines : symbolLines narrowedLine = [narrowedLine] := by decide
  have hline : readSymbolLine .uint32 narrowedLine = .ok ⟨ascii "f", 1, 0xffffffff⟩ := by decide
  have hread : readRawSymbolData .uint32 narrowedLine = .ok [⟨ascii "f", 1, 0xffffffff⟩] := by
    refine readRawSymbolData_eq_ok.mpr ⟨hutf, ?_⟩
    rw [hlines]
    exact .cons hline .nil
  have hexact := h _ hread
  rw [hlines, List.forall₂_cons_left_iff] at hexact
  obtain ⟨s, rest, ⟨base, fin, name, hparts, hbase, -⟩, -, hs⟩ := hexact
  have hsplit : narrowedLine.splitOn tab = [ascii "0x100000001", ascii "-1", ascii "f"] := by decide
  rw [hsplit] at hparts
  cases hs
  cases hparts
  revert hbase
  decide

end DSYMCreator
