import DSYMCreator.Properties.SymbolText

/-!
# Symbolication with the ranges of the methods

Every start is one below the `IMP`, whether that is the Thumb bit or a byte in
front of ARM code. Instructions have even addresses, so the shifted ranges cover
the same instructions as the ranges between the code addresses. The ranges are
taken from the text as it was written, number by number.
-/
namespace DSYMCreator

open Text Python Successive

/-! ## The ranges in a text -/

/-- A line of the text: two numbers and a name. -/
structure TextRange where
  base : ℕ
  fin : ℕ
  name : Bytes

/-- The line of a range: the fields in front of the first two tabs are numerals as a whole, and
the rest is the name, which may have tabs of its own. -/
def readRange (l : Bytes) : Option TextRange := do
  let (base, rest) ← splitFirst tab l
  let (fin, name) ← splitFirst tab rest
  let base ← hexNumeral base
  let fin ← hexNumeral fin
  return ⟨base, fin, name⟩

/-- The ranges of a text, if each of its lines is one. -/
def readRanges (text : Bytes) : Option (List TextRange) := (text.splitOn newline).mapM readRange

/-- The range `[base, end)` contains the address. -/
def TextRange.contains (pc : ℕ) (r : TextRange) : Bool := decide (r.base ≤ pc ∧ pc < r.fin)

namespace RawSymbol

/-- The element `[start, end, name]` contains the address. -/
def contains (pc : ℕ) (s : RawSymbol) : Bool :=
  decide (s.start.value ≤ pc ∧ (pc : ℤ) < s.fin.value)

/-- Neither number is negative, so `hex` writes no sign. -/
def Unsigned (s : RawSymbol) : Prop := 0 ≤ s.start.value ∧ 0 ≤ s.fin.value

def toRange (s : RawSymbol) : TextRange := ⟨s.start.value.toNat, s.fin.value.toNat, s.name⟩

theorem readRange_formatSymbol {s : RawSymbol} (h : s.Unsigned) :
    readRange (formatSymbol s) = some s.toRange := by
  have hstart : hexNumeral s.start.hex = some s.start.value.toNat :=
    hexNumeral_hex (Int.toNat_of_nonneg h.1).symm
  have hfin : hexNumeral s.fin.hex = some s.fin.value.toNat :=
    hexNumeral_hex (Int.toNat_of_nonneg h.2).symm
  have htab : isSpace tab = true := by decide
  rw [formatSymbol_eq, readRange, splitFirst_append (not_mem_hex htab _)]
  change (splitFirst tab (s.fin.hex ++ tab :: s.name) >>= _) = _
  rw [splitFirst_append (not_mem_hex htab _)]
  change (hexNumeral s.start.hex >>= fun base => hexNumeral s.fin.hex >>= fun fin => _) = _
  rw [hstart, hfin]
  rfl

theorem mapM_readRange {symbols : List RawSymbol} (h : ∀ s ∈ symbols, s.Unsigned) :
    (symbols.map formatSymbol).mapM readRange = some (symbols.map toRange) := by
  induction symbols with
  | nil => rfl
  | cons s symbols ih =>
    have hs := readRange_formatSymbol (h s List.mem_cons_self)
    have hrest := ih fun t ht => h t (List.mem_cons_of_mem s ht)
    rw [List.map_cons, List.mapM_cons, hs, hrest]
    rfl

theorem contains_toRange {s : RawSymbol} (h : s.Unsigned) (pc : ℕ) :
    s.toRange.contains pc = s.contains pc := by
  obtain ⟨hstart, hfin⟩ := h
  have hbounds : s.start.value.toNat ≤ pc ∧ pc < s.fin.value.toNat ↔
      s.start.value ≤ pc ∧ (pc : ℤ) < s.fin.value := by omega
  exact decide_eq_decide.mpr hbounds

theorem filter_toRange {symbols : List RawSymbol} (h : ∀ s ∈ symbols, s.Unsigned) (pc : ℕ) :
    (symbols.map toRange).filter (TextRange.contains pc) =
      (symbols.filter (contains pc)).map toRange := by
  rw [List.filter_map]
  congr 1
  apply List.filter_congr
  intro s hs
  exact contains_toRange (h s hs) pc

end RawSymbol

theorem readRanges_formatSymbols {symbols : List RawSymbol} (hne : symbols ≠ [])
    (hline : ∀ s ∈ symbols, newline ∉ formatSymbol s) (h : ∀ s ∈ symbols, s.Unsigned) :
    readRanges (formatSymbols symbols) = some (symbols.map RawSymbol.toRange) := by
  have hlines : (formatSymbols symbols).splitOn newline = symbols.map formatSymbol := by
    refine splitOn_joinWith ?_ (by simpa using hne)
    intro l hl
    obtain ⟨s, hs, rfl⟩ := List.mem_map.mp hl
    exact hline s hs
  rw [readRanges, hlines, RawSymbol.mapM_readRange h]

namespace Method

theorem value_start (m : Method) : m.start.value = m.address - 1 := rfl

/-- For an instruction, the bounds shifted by one are the bounds at the code addresses. -/
theorem closedBy_contains {arch : Arch} {m n : Method} {pc : ℕ} (hm : arch.IsImp m.address)
    (hn : arch.IsImp n.address) (hpc : arch.IsInstruction pc) :
    (m.closedBy n).contains pc = true ↔ m.code ≤ pc ∧ pc < n.code := by
  have hm' := hm.even_or
  have hn' := hn.even_or
  have hpc' := hpc.even
  unfold RawSymbol.contains
  rw [decide_eq_true_iff]
  simp only [closedBy, value_start, code]
  omega

theorem faked_contains {arch : Arch} {m : Method} {pc : ℕ} (hm : arch.IsImp m.address)
    (hpc : arch.IsInstruction pc) :
    m.faked.contains pc = true ↔ m.code ≤ pc ∧ pc < m.code + 0x1000 := by
  have hm' := hm.even_or
  have hpc' := hpc.even
  unfold RawSymbol.contains
  rw [decide_eq_true_iff]
  simp only [faked, PyInt.value_add, PyInt.value_ofValue, value_start, code]
  omega

theorem covers {arch : Arch} {ms : List Method} {pc : ℕ} (himp : ∀ m ∈ ms, arch.IsImp m.address)
    (hpc : arch.IsInstruction pc) :
    Covers code (fun m => m.code + 0x1000) pc (RawSymbol.contains pc) closedBy faked ms where
  next m hm n hn := closedBy_contains (himp m hm) (himp n hn) hpc
  last m hm := faked_contains (himp m hm) hpc

/-- Text order is address order, for digits of one length. -/
theorem sorted_pairwise {k : ℕ} {ms : List Method} (hlen : ∀ m ∈ ms, m.digits.length = k) :
    (sorted ms).Pairwise fun m n => m.code ≤ n.code := by
  have hlines : (sorted ms).Pairwise fun m n => m.line ≤ n.line := by
    have hpairs := sortLines_pairwise (ms.map line)
    rw [sortLines_lines] at hpairs
    exact List.pairwise_map.mp hpairs
  apply hlines.imp_of_mem
  intro m n hm hn hle
  have hmlen := hlen m ((sorted_perm ms).mem_iff.mp hm)
  have hnlen := hlen n ((sorted_perm ms).mem_iff.mp hn)
  by_contra hlt
  have haddress : n.address < m.address := by
    simp only [code] at hlt
    omega
  exact List.not_le.mpr (line_lt_of_lt (hnlen.trans hmlen.symm) haddress) hle

theorem written_perm (ms : List Method) :
    ((written ms).map fun s => (s.start.value + 1, s.name)).Perm
      (ms.map fun m => ((m.address : ℤ), m.name)) := by
  have hmap : ((written ms).map fun s => (s.start.value + 1, s.name)) =
      (sorted ms).map fun m => ((m.address : ℤ), m.name) := by
    refine map_written ?_ ?_ ms
    · intro m n
      simp [closedBy, value_start]
    · intro m
      simp [faked, value_start]
  rw [hmap]
  exact (sorted_perm ms).map _

theorem written_filter {arch : Arch} {k : ℕ} {ms : List Method} {pc : ℕ}
    (hlen : ∀ m ∈ ms, m.digits.length = k) (himp : ∀ m ∈ ms, arch.IsImp m.address)
    (hpc : arch.IsInstruction pc) (hlow : ∃ m ∈ ms, m.code ≤ pc)
    (hhigh : ∃ m ∈ ms, pc < m.code + 0x1000) :
    ∃ m ∈ ms, ∃ s, (written ms).filter (RawSymbol.contains pc) = [s] ∧
      (s.start.value + 1, s.name) = ((m.address : ℤ), m.name) ∧ m.code ≤ pc ∧
      ∀ n ∈ ms, n.code ≤ pc → n.code ≤ m.code := by
  have hperm := sorted_perm ms
  have hpairs := sorted_pairwise hlen
  have hne : sorted ms ≠ [] := by
    obtain ⟨m, hm, -⟩ := hlow
    exact List.ne_nil_of_mem (hperm.mem_iff.mpr hm)
  have hfirst : ∀ m ∈ (sorted ms).head?, m.code ≤ pc := by
    intro m hm
    obtain ⟨n, hn, hnpc⟩ := hlow
    obtain ⟨rest, hrest⟩ : ∃ rest, sorted ms = m :: rest := List.head?_eq_some_iff.mp hm
    have hmem := hperm.mem_iff.mpr hn
    rw [hrest] at hpairs hmem
    rcases List.mem_cons.mp hmem with rfl | hmem
    · exact hnpc
    · exact ((List.pairwise_cons.mp hpairs).1 n hmem).trans hnpc
  have hlast : ∀ m ∈ (sorted ms).getLast?, pc < m.code + 0x1000 := by
    intro m hm
    obtain ⟨n, hn, hnpc⟩ := hhigh
    obtain ⟨front, hfront⟩ : ∃ front, sorted ms = front ++ [m] := List.getLast?_eq_some_iff.mp hm
    have hmem := hperm.mem_iff.mpr hn
    rw [hfront] at hpairs hmem
    rcases List.mem_append.mp hmem with hmem | hmem
    · have hle := (List.pairwise_append.mp hpairs).2.2 n hmem m List.mem_cons_self
      omega
    · rw [List.mem_singleton.mp hmem] at hnpc
      exact hnpc
  have hcovers : Covers code (fun m => m.code + 0x1000) pc (RawSymbol.contains pc) closedBy faked
      (sorted ms) := covers (fun m hm => himp m (hperm.mem_iff.mp hm)) hpc
  have hnext (m n : Method) : ((m.closedBy n).start.value + 1, (m.closedBy n).name) =
      ((m.address : ℤ), m.name) := by simp [closedBy, value_start]
  have hfaked (m : Method) : (m.faked.start.value + 1, m.faked.name) =
      ((m.address : ℤ), m.name) := by simp [faked, value_start]
  obtain ⟨m, hm, s, hfilter, hs, hmpc, hgreatest⟩ :=
    filter_chain (g := fun s : RawSymbol => (s.start.value + 1, s.name)) hnext hfaked hcovers hpairs
      hne hfirst hlast
  exact ⟨m, hperm.mem_iff.mp hm, s, hfilter, hs, hmpc,
    fun n hn => hgreatest n (hperm.mem_iff.mpr hn)⟩

theorem written_unsigned {arch : Arch} {ms : List Method} (himp : ∀ m ∈ ms, arch.IsImp m.address)
    {s : RawSymbol} (hs : s ∈ written ms) : s.Unsigned := by
  obtain ⟨m, hm, -, hstart, n, hn, hfin⟩ := mem_written hs
  have hmpos := (himp m hm).even_or.1
  have hnpos := (himp n hn).even_or.1
  unfold RawSymbol.Unsigned
  rw [hstart]
  rcases hfin with hfin | hfin
  · rw [hfin]
    omega
  · rw [hfin]
    omega

theorem readRanges_written {arch : Arch} {ms : List Method} (hne : ms ≠ [])
    (himp : ∀ m ∈ ms, arch.IsImp m.address) :
    readRanges (formatSymbols (written ms)) = some ((written ms).map RawSymbol.toRange) := by
  apply readRanges_formatSymbols (written_ne_nil hne) _ fun s hs => written_unsigned himp hs
  intro s hs
  obtain ⟨m, -, hname, -⟩ := mem_written hs
  apply newline_not_mem_formatSymbol
  rw [hname]
  exact m.name_line

theorem ranges_perm {arch : Arch} {ms : List Method} (himp : ∀ m ∈ ms, arch.IsImp m.address) :
    (((written ms).map RawSymbol.toRange).map fun r => (r.base + 1, r.name)).Perm
      (ms.map fun m => (m.address, m.name)) := by
  have hbase : ((written ms).map RawSymbol.toRange).map (fun r => (r.base + 1, r.name)) =
      ((written ms).map fun s => (s.start.value + 1, s.name)).map fun p => (p.1.toNat, p.2) := by
    rw [List.map_map, List.map_map]
    apply List.map_congr_left
    intro s hs
    have hpos := (written_unsigned himp hs).1
    simp only [Function.comp, RawSymbol.toRange, Prod.mk.injEq, and_true]
    omega
  have hperm := (written_perm ms).map fun p => (p.1.toNat, p.2)
  rw [List.map_map (l := ms)] at hperm
  rw [hbase]
  exact hperm

/-- The text that is written lists every method once, and symbolication by the ranges that are
read from it finds the right method for every instruction from the first method to a page behind
the last. -/
theorem symbolication_finds_method {arch : Arch} {k : ℕ} {ms : List Method} (hne : ms ≠ [])
    (hlen : ∀ m ∈ ms, m.digits.length = k) (himp : ∀ m ∈ ms, arch.IsImp m.address) :
    ∃ text ranges, extractRawSymbolFromObjcSymbols (ms.map line) = .ok text ∧
      readRanges text = some ranges ∧
      (ranges.map fun r => (r.base + 1, r.name)).Perm (ms.map fun m => (m.address, m.name)) ∧
      ∀ pc, arch.IsInstruction pc → (∃ m ∈ ms, m.code ≤ pc) → (∃ m ∈ ms, pc < m.code + 0x1000) →
        ∃ m ∈ ms, ∃ r, ranges.filter (TextRange.contains pc) = [r] ∧
          r.base + 1 = m.address ∧ r.name = m.name ∧ m.code ≤ pc ∧
          ∀ n ∈ ms, n.code ≤ pc → n.code ≤ m.code := by
  refine ⟨_, _, extract_lines hne, readRanges_written hne himp, ranges_perm himp, ?_⟩
  intro pc hpc hlow hhigh
  obtain ⟨m, hm, s, hfilter, hs, hmpc, hgreatest⟩ := written_filter hlen himp hpc hlow hhigh
  obtain ⟨hstart, hname⟩ := Prod.mk.inj hs
  have hmpos := (himp m hm).even_or.1
  have hranges : ((written ms).map RawSymbol.toRange).filter (TextRange.contains pc) =
      [s.toRange] := by
    rw [RawSymbol.filter_toRange fun t ht => written_unsigned himp ht, hfilter, List.map_singleton]
  refine ⟨m, hm, s.toRange, hranges, ?_, hname, hmpc, hgreatest⟩
  change s.start.value.toNat + 1 = m.address
  omega

/-- A method of a class `A`. -/
def sampleMethod (digits : List ℕ) (c : Char) (hne : digits ≠ []) (hlt : ∀ d ∈ digits, d < 16)
    (hc : ch c ≠ newline) : Method where
  digits := digits
  name := ascii "-[A " ++ [ch c, ch ']']
  digits_ne := hne
  digits_lt := hlt
  name_ne := by simp
  name_line := by
    have hfront : newline ∉ ascii "-[A " := by decide
    have hback : newline ≠ ch ']' := by decide
    simp [hfront, hback, hc.symm]
  name_end := by
    intro d hd
    obtain rfl : ch ']' = d := by simpa using hd
    decide

/-- A Thumb method behind an ARM method, printed in this order. -/
def sampleMethods : List Method :=
  [sampleMethod [4, 0, 0, 1] 'b' (by decide) (by decide) (by decide),
    sampleMethod [3, 15, 15, 12] 'c' (by decide) (by decide) (by decide)]

/-- Three methods at one address, one of them with a tab in its name. -/
def crowdedMethods : List Method :=
  sampleMethods ++ [sampleMethod [4, 0, 0, 1] 'a' (by decide) (by decide) (by decide),
    sampleMethod [4, 0, 0, 1] '\t' (by decide) (by decide) (by decide)]

theorem symbolication_finds_method_sample :
    ∃ text ranges, extractRawSymbolFromObjcSymbols (crowdedMethods.map line) = .ok text ∧
      readRanges text = some ranges ∧
      (ranges.map fun r => (r.base + 1, r.name)).Perm
        (crowdedMethods.map fun m => (m.address, m.name)) ∧
      ∃ r, ranges.filter (TextRange.contains 0x4010) = [r] ∧ r.base = 0x4000 := by
  have himp : ∀ m ∈ crowdedMethods, Arch.armv7.IsImp m.address := by decide
  have hthumb : ∀ m ∈ crowdedMethods, 0x4000 ≤ m.code → m.address = 0x4001 := by decide
  obtain ⟨text, ranges, hextract, hread, hperm, hfind⟩ :=
    symbolication_finds_method (k := 4) (List.cons_ne_nil _ _) (by decide) himp
  obtain ⟨m, hm, r, hfilter, hbase, -, -, hgreatest⟩ :=
    hfind 0x4010 (by decide) (by decide) (by decide)
  have hcode : 0x4000 ≤ m.code := hgreatest _ List.mem_cons_self (by decide)
  have haddress := hthumb m hm hcode
  exact ⟨text, ranges, hextract, hread, hperm, r, hfilter, by omega⟩

end Method
end DSYMCreator
