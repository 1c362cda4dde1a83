import DSYMCreator.Order.Related
import DSYMCreator.Script.IdcScript
import DSYMCreator.Tool.SymbolLines

/-!
# The symbol text of both scripts is read back

`main.py` joins its lines with newlines and marks every `long` with an `L`;
`all.idc` ends every line with a newline and prints unsigned numbers. The fields
of both are numerals as a whole, so the tool reads either text as the symbols
that were written, in their order.
-/
namespace DSYMCreator

open Text Python Related

variable {T : AddrType}

/-- A name that a line can carry. -/
structure LineName (name : StdString) : Prop where
  no_tab : tab ∉ name
  no_newline : newline ∉ name
  no_nul : 0 ∉ name
  utf8 : IsUtf8 name

/-- What a script line of `main.py` says about a symbol: each number is an `int` or a `long`. -/
structure RawSymbol.Denotes (r : RawSymbol) (s : Symbol T) : Prop where
  start : r.start.value = s.base.toNat
  fin : r.fin.value = s.endAddr.toNat
  name : r.name = s.name

/-- The symbol as a function that `all.idc` visits. -/
def Symbol.toFunction (s : Symbol T) : IdcFunction := ⟨s.base.toNat, s.endAddr.toNat, s.name⟩

/-- A line with the numerals of a symbol and its name. -/
structure LineOf (s : Symbol T) (line : Bytes) : Prop where
  ne_nil : line ≠ []
  no_newline : newline ∉ line
  utf8 : IsUtf8 line
  read : readSymbolLine T line = .ok s

theorem lineOf_joinWith {base fin : Bytes} {s : Symbol T} (hbase : hexNumeral base = some s.base.toNat)
    (hfin : hexNumeral fin = some s.endAddr.toNat) (hname : LineName s.name) :
    LineOf s (joinWith tab [base, fin, s.name]) := by
  have hblank {c : UInt8} (hc : isSpace c = true) {field : Bytes} {v : ℕ}
      (hfield : hexNumeral field = some v) : c ∉ field := by
    intro hmem
    have hno := (mem_hexNumeral hfield hmem).2.1
    rw [hno] at hc
    cases hc
  have htab : isSpace tab = true := by decide
  have hnewline : isSpace newline = true := by decide
  have hutf {field : Bytes} {v : ℕ} (hfield : hexNumeral field = some v) : IsUtf8 field :=
    isUtf8_of_ascii fun c hc => (mem_hexNumeral hfield hc).2.2
  have hsplit : (joinWith tab [base, fin, s.name]).splitOn tab = [base, fin, s.name] := by
    apply splitOn_joinWith
    · intro p hp
      simp only [List.mem_cons, List.not_mem_nil, or_false] at hp
      rcases hp with rfl | rfl | rfl
      · exact hblank htab hbase
      · exact hblank htab hfin
      · exact hname.no_tab
    · exact List.cons_ne_nil _ _
  refine ⟨?_, ?_, ?_, ?_⟩
  · rw [joinWith_cons_cons]
    simp
  · rw [joinWith_cons_cons, joinWith_cons_cons]
    simp only [joinWith, List.intercalate, List.intersperse_singleton, List.flatten_singleton,
      List.mem_append, List.mem_cons, not_or]
    have hne : newline ≠ tab := by decide
    exact ⟨hblank hnewline hbase, hne, hblank hnewline hfin, hne, hname.no_newline⟩
  · apply isUtf8_joinWith (by decide)
    intro p hp
    simp only [List.mem_cons, List.not_mem_nil, or_false] at hp
    rcases hp with rfl | rfl | rfl
    · exact hutf hbase
    · exact hutf hfin
    · exact hname.utf8
  · exact readSymbolLine_eq_ok.mpr ⟨base, fin, s.name, hsplit, convert_of_hexNumeral hbase,
      convert_of_hexNumeral hfin, (cStr_eq hname.no_nul).symm⟩

theorem hexNumeral_hex {x : PyInt} {n : ℕ} (h : x.value = n) : hexNumeral x.hex = some n := by
  have hneg : ¬ x.value < 0 := by omega
  have habs : x.value.natAbs = n := by omega
  have htext : x.hex = ch '0' :: ch 'x' :: (hexText n ++ if x.long then [ch 'L'] else []) := by
    simp [PyInt.hex, hneg, habs]
  rw [htext]
  apply hexNumeral_hexText
  split_ifs
  · exact .inr rfl
  · exact .inl rfl

theorem hexNumeral_formatAddress (n : ℕ) : hexNumeral (formatAddress n) = some n := by
  have h := hexNumeral_hexText n (.inl rfl)
  rwa [List.append_nil] at h

theorem lineOf_formatSymbol {r : RawSymbol} {s : Symbol T} (h : r.Denotes s)
    (hname : LineName s.name) : LineOf s (formatSymbol r) := by
  unfold formatSymbol
  rw [h.name]
  exact lineOf_joinWith (hexNumeral_hex h.start) (hexNumeral_hex h.fin) hname

theorem lineOf_formatFunction {s : Symbol T} (hname : LineName s.name) :
    LineOf s (formatFunction s.toFunction) :=
  lineOf_joinWith (hexNumeral_formatAddress _) (hexNumeral_formatAddress _) hname

theorem readRawSymbolData_lines {content : Bytes} {lines : List Bytes} {symbols : List (Symbol T)}
    (hutf : IsUtf8 content) (hlines : symbolLines content = lines)
    (h : List.Forall₂ LineOf symbols lines) : readRawSymbolData T content = .ok symbols := by
  refine readRawSymbolData_eq_ok.mpr ⟨hutf, ?_⟩
  rw [hlines]
  apply h.flip.imp
  intro line s hline
  exact hline.read

theorem readRawSymbolData_joinWith {symbols : List (Symbol T)} {lines : List Bytes}
    (h : List.Forall₂ LineOf symbols lines) :
    readRawSymbolData T (joinWith newline lines) = .ok symbols := by
  have hline := exists_of_mem_right h
  apply readRawSymbolData_lines _ _ h
  · apply isUtf8_joinWith (by decide)
    intro l hl
    obtain ⟨s, hs⟩ := hline l hl
    exact hs.utf8
  · apply symbolLines_joinWith
    · intro l hl
      obtain ⟨s, hs⟩ := hline l hl
      exact hs.no_newline
    · intro l hl
      obtain ⟨s, hs⟩ := hline l hl
      exact hs.ne_nil

theorem readRawSymbolData_unlines {symbols : List (Symbol T)} {lines : List Bytes}
    (h : List.Forall₂ LineOf symbols lines) :
    readRawSymbolData T (unlines lines) = .ok symbols := by
  have hline := exists_of_mem_right h
  apply readRawSymbolData_lines _ _ h
  · apply isUtf8_unlines
    intro l hl
    obtain ⟨s, hs⟩ := hline l hl
    exact hs.utf8
  · apply symbolLines_unlines
    · intro l hl
      obtain ⟨s, hs⟩ := hline l hl
      exact hs.no_newline
    · intro l hl
      obtain ⟨s, hs⟩ := hline l hl
      exact hs.ne_nil

theorem lineOf_formatSymbols {raw : List RawSymbol} {symbols : List (Symbol T)}
    (h : List.Forall₂ RawSymbol.Denotes raw symbols) (hnames : ∀ s ∈ symbols, LineName s.name) :
    List.Forall₂ LineOf symbols (raw.map formatSymbol) := by
  induction h with
  | nil => exact .nil
  | @cons r s raw symbols hr _ ih =>
    have hs := hnames s List.mem_cons_self
    have hrest := ih fun s' hs' => hnames s' (List.mem_cons_of_mem s hs')
    exact .cons (lineOf_formatSymbol hr hs) hrest

theorem lineOf_formatFunctions {symbols : List (Symbol T)} (hnames : ∀ s ∈ symbols, LineName s.name) :
    List.Forall₂ LineOf symbols ((symbols.map Symbol.toFunction).map formatFunction) := by
  rw [List.map_map, List.forall₂_map_right_iff, List.forall₂_same]
  intro s hs
  exact lineOf_formatFunction (hnames s hs)

/-- The tool reads the text of either script as the symbols that it was written from. -/
theorem symbolText_readBack (T : AddrType) (symbols : List (Symbol T))
    (hnames : ∀ s ∈ symbols, LineName s.name) :
    (∀ raw : List RawSymbol, List.Forall₂ RawSymbol.Denotes raw symbols →
      readRawSymbolData T (formatSymbols raw) = .ok symbols) ∧
    readRawSymbolData T (printAllMethod (symbols.map Symbol.toFunction)) = .ok symbols := by
  constructor
  · intro raw hraw
    exact readRawSymbolData_joinWith (lineOf_formatSymbols hraw hnames)
  · exact readRawSymbolData_unlines (lineOf_formatFunctions hnames)

/-- A symbol with an empty name and one whose name looks like a number, at the top of the
address space; the second start is a `long`. -/
def topSymbols : List (Symbol .uint64) :=
  [⟨[], 0, 0xffffffffffffffff⟩, ⟨ascii "0x1F g", 0xffffffffffffffff, 1⟩]

theorem topSymbols_readBack :
    readRawSymbolData .uint64 (formatSymbols [⟨.ofValue 0, .ofValue 0xffffffffffffffff, []⟩,
      ⟨.ofValue 0xffffffffffffffff, .ofValue 1, ascii "0x1F g"⟩]) = .ok topSymbols ∧
    readRawSymbolData .uint64 (printAllMethod (topSymbols.map Symbol.toFunction)) = .ok topSymbols := by
  have hnames : ∀ s ∈ topSymbols, LineName s.name := by
    intro s hs
    have hascii : ∀ s ∈ topSymbols, s.name.all (· < 128) = true := by
      intro s hs
      simp only [topSymbols, List.mem_cons, List.not_mem_nil, or_false] at hs
      rcases hs with rfl | rfl <;> decide
    have hutf : IsUtf8 s.name :=
      isUtf8_of_ascii fun c hc => of_decide_eq_true (List.all_eq_true.mp (hascii s hs) c hc)
    simp only [topSymbols, List.mem_cons, List.not_mem_nil, or_false] at hs
    rcases hs with rfl | rfl
    · exact ⟨by decide, by decide, by decide, hutf⟩
    · exact ⟨by decide, by decide, by decide, hutf⟩
  obtain ⟨hpy, hidc⟩ := symbolText_readBack .uint64 topSymbols hnames
  exact ⟨hpy _ (.cons ⟨rfl, rfl, rfl⟩ (.cons ⟨rfl, rfl, rfl⟩ .nil)), hidc⟩

end DSYMCreator
