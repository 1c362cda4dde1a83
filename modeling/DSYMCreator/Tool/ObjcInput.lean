import DSYMCreator.Script.ObjcSymbols
import DSYMCreator.Text.Utf8
import DSYMCreator.Tool.FileImage
import DSYMCreator.Tool.Main
import Mathlib.Data.List.TakeWhile

/-!
# The text between the script and the tool

The script writes one line a symbol, and the tool reads the lines back with its own
scanner. A line is read exactly when its name has no tab and its numbers have 64
bits; the addresses then wrap to the width of `T`.
-/
namespace DSYMCreator

open Text Python Successive

variable {T : AddrType}

/-- The template argument: the script passes `--arm64` on for arm64. -/
def Arch.addrType : Arch → AddrType
  | .armv7 => .uint32
  | .arm64 => .uint64

/-- The symbols that the tool reads from what the script writes. -/
def readObjcSymbols (T : AddrType) (lines : List Bytes) : Option (List (Symbol T)) := do
  let text ← (extractRawSymbolFromObjcSymbols lines).toOption
  (readRawSymbolData T text).toOption

/-- The buffers that the tool prepares of them. -/
def prepareObjcBuffers (stack : StackContents) (arch : Arch) (lines : List Bytes) :
    Option Macho.Buffers := do
  let symbols ← readObjcSymbols arch.addrType lines
  (Macho.prepareBuffers stack symbols).toOption

/-! ## One line -/

theorem cStr_eq {s : Bytes} (h : 0 ∉ s) : cStr s = s := by
  unfold cStr
  rw [List.takeWhile_eq_self_iff]
  intro c hc
  exact decide_eq_true fun he => h (he ▸ hc)

theorem setWidth_ofInt (T : AddrType) (v : ℤ) :
    (BitVec.ofInt 64 v).setWidth (8 * T.size) = BitVec.ofInt (8 * T.size) v := by
  apply BitVec.eq_of_toNat_eq
  rw [BitVec.toNat_setWidth, BitVec.toNat_ofInt, BitVec.toNat_ofInt]
  cases T <;> simp only [AddrType.size] <;> omega

/-- A number that the script printed is cast to `T`, or its conversion throws. -/
theorem convert_hex (T : AddrType) (x : PyInt) :
    convert T x.hex = if 2 ^ 64 ≤ x.value.natAbs then .error (.conversion .outOfRange)
      else .ok (BitVec.ofInt _ x.value) := by
  have hnul : 0 ∉ x.hex := fun h => (PyInt.mem_hex h).1 rfl
  unfold convert
  rw [cStr_eq hnul, stoullTo, stoull_hex]
  by_cases hbig : 2 ^ 64 ≤ x.value.natAbs
  · rw [if_pos hbig, if_pos hbig]
    rfl
  · rw [if_neg hbig, if_neg hbig, ← setWidth_ofInt]
    rfl

namespace RawSymbol

/-- What the tool accepts of a line. -/
structure Readable (s : RawSymbol) : Prop where
  name : tab ∉ s.name
  start : s.start.value.natAbs < 2 ^ 64
  fin : s.fin.value.natAbs < 2 ^ 64

/-- The symbol that the tool makes of a line. -/
def readBack (T : AddrType) (s : RawSymbol) : Symbol T :=
  ⟨cStr s.name, BitVec.ofInt _ s.start.value, BitVec.ofInt _ s.fin.value⟩

end RawSymbol

theorem not_mem_hex {c : UInt8} (hc : isSpace c = true) (x : PyInt) : c ∉ x.hex := by
  intro h
  have hno := (PyInt.mem_hex h).2.1
  rw [hno] at hc
  cases hc

theorem formatSymbol_eq (s : RawSymbol) :
    formatSymbol s = s.start.hex ++ tab :: (s.fin.hex ++ tab :: s.name) := by
  unfold formatSymbol
  rw [joinWith_cons_cons, joinWith_cons_cons]
  simp [joinWith]

theorem splitOn_formatSymbol (s : RawSymbol) :
    (formatSymbol s).splitOn tab = s.start.hex :: s.fin.hex :: s.name.splitOn tab := by
  rw [formatSymbol_eq, List.splitOn_append_cons_self_of_not_mem (not_mem_hex (by decide) _),
    List.splitOn_append_cons_self_of_not_mem (not_mem_hex (by decide) _)]

theorem not_mem_of_splitOn {sep : UInt8} {s p : Bytes} (h : s.splitOn sep = [p]) : sep ∉ s := by
  intro hmem
  obtain ⟨front, back, rfl⟩ := List.append_of_mem hmem
  rw [List.splitOn_append_cons_self] at h
  have hlength := congrArg List.length h
  have hfront := List.length_pos_of_ne_nil (List.splitOn_ne_nil sep front)
  have hback := List.length_pos_of_ne_nil (List.splitOn_ne_nil sep back)
  rw [List.length_append, List.length_singleton] at hlength
  omega

theorem readSymbolLine_eq_ok_iff {s : RawSymbol} {t : Symbol T} :
    readSymbolLine T (formatSymbol s) = .ok t ↔ s.Readable ∧ t = s.readBack T := by
  unfold readSymbolLine
  rw [splitOn_formatSymbol]
  by_cases htab : tab ∈ s.name
  · -- at least four fields
    constructor
    · intro h
      rcases hparts : s.name.splitOn tab with _ | ⟨p, _ | ⟨q, parts⟩⟩
      · exact absurd hparts (List.splitOn_ne_nil tab s.name)
      · exact absurd htab (not_mem_of_splitOn hparts)
      · rw [hparts] at h
        cases h
    · rintro ⟨hreadable, -⟩
      exact absurd htab hreadable.name
  · rw [List.splitOn_eq_singleton htab]
    simp only [convert_hex]
    constructor
    · intro h
      split_ifs at h with hstart hfin hfin
      all_goals cases h
      exact ⟨⟨htab, not_le.mp hstart, not_le.mp hfin⟩, rfl⟩
    · rintro ⟨hreadable, rfl⟩
      rw [if_neg (not_le.mpr hreadable.start), if_neg (not_le.mpr hreadable.fin)]
      rfl

/-! ## The whole text -/

theorem readSymbolLines_eq_ok_iff {ss : List RawSymbol} {symbols : List (Symbol T)} :
    readSymbolLines T (ss.map formatSymbol) = .ok symbols ↔
      (∀ s ∈ ss, s.Readable) ∧ symbols = ss.map (RawSymbol.readBack T) := by
  induction ss generalizing symbols with
  | nil =>
    simp only [List.map_nil, readSymbolLines, List.not_mem_nil, false_implies, implies_true, true_and]
    exact ⟨fun h => (Except.ok.inj h).symm, fun h => congrArg Except.ok h.symm⟩
  | cons s ss ih =>
    have hline : formatSymbol s ≠ [] := by
      rw [formatSymbol_eq]
      simp
    rw [List.map_cons, readSymbolLines, if_neg hline, bind_eq_ok]
    simp only [bind_eq_ok, readSymbolLine_eq_ok_iff, ih]
    constructor
    · rintro ⟨t, ⟨hs, rfl⟩, rest, ⟨hss, rfl⟩, h⟩
      refine ⟨?_, (Except.ok.inj h).symm⟩
      intro s' hs'
      rcases List.mem_cons.mp hs' with rfl | hs'
      · exact hs
      · exact hss s' hs'
    · rintro ⟨hall, rfl⟩
      have hrest : ∀ s' ∈ ss, s'.Readable := fun s' hs' => hall s' (List.mem_cons_of_mem s hs')
      exact ⟨_, ⟨hall s List.mem_cons_self, rfl⟩, _, ⟨hrest, rfl⟩, rfl⟩

theorem newline_not_mem_formatSymbol {s : RawSymbol} (h : newline ∉ s.name) :
    newline ∉ formatSymbol s := by
  rw [formatSymbol_eq]
  simp only [List.mem_append, List.mem_cons, not_or]
  have hnum := not_mem_hex (c := newline) (by decide)
  exact ⟨hnum _, by decide, hnum _, by decide, h⟩

/-- The tool reads the symbols of a text back, in order, or none of them. -/
theorem readRawSymbolData_eq_ok_iff {ss : List RawSymbol} (hne : ss ≠ [])
    (hnames : ∀ s ∈ ss, newline ∉ s.name) {symbols : List (Symbol T)} :
    readRawSymbolData T (formatSymbols ss) = .ok symbols ↔
      IsUtf8 (formatSymbols ss) ∧ (∀ s ∈ ss, s.Readable) ∧
        symbols = ss.map (RawSymbol.readBack T) := by
  have hlines : (formatSymbols ss).splitOn newline = ss.map formatSymbol := by
    refine splitOn_joinWith ?_ (by simpa using hne)
    intro l hl
    obtain ⟨s, hs, rfl⟩ := List.mem_map.mp hl
    exact newline_not_mem_formatSymbol (hnames s hs)
  unfold readRawSymbolData
  rw [hlines]
  by_cases hutf : (formatSymbols ss).toByteArray.IsValidUTF8
  · rw [if_pos hutf, readSymbolLines_eq_ok_iff]
    exact ⟨fun h => ⟨hutf, h⟩, fun h => h.2⟩
  · rw [if_neg hutf]
    constructor
    · intro h
      cases h
    · rintro ⟨h, -⟩
      exact absurd h hutf

theorem isUtf8_formatSymbols {ss : List RawSymbol} (h : ∀ s ∈ ss, IsUtf8 s.name) :
    IsUtf8 (formatSymbols ss) := by
  apply isUtf8_joinWith (by decide)
  intro l hl
  obtain ⟨s, hs, rfl⟩ := List.mem_map.mp hl
  apply isUtf8_joinWith (by decide)
  intro p hp
  have hnum (x : PyInt) : IsUtf8 x.hex := isUtf8_of_ascii fun c hc => (PyInt.mem_hex hc).2.2
  simp only [List.mem_cons, List.not_mem_nil, or_false] at hp
  rcases hp with rfl | rfl | rfl
  · exact hnum _
  · exact hnum _
  · exact h s hs

/-! ## The methods of a binary -/

namespace Method

/-- Every written symbol has the name of a method; its numbers are the addresses, one below
the `IMP` fields, and the fake end. -/
theorem mem_written {ms : List Method} {s : RawSymbol} (h : s ∈ written ms) :
    ∃ m ∈ ms, s.name = m.name ∧ s.start.value = m.address - 1 ∧
      ∃ n ∈ ms, s.fin.value = n.address - 1 ∨ s.fin.value = n.address - 1 + 0x1000 := by
  have hperm := sorted_perm ms
  rcases mem_chain h with ⟨m, hm, n, hn, rfl⟩ | ⟨m, hm, rfl⟩
  · exact ⟨m, hperm.mem_iff.mp hm, rfl, rfl, n, hperm.mem_iff.mp hn, .inl rfl⟩
  · exact ⟨m, hperm.mem_iff.mp hm, rfl, rfl, m, hperm.mem_iff.mp hm, .inr rfl⟩

theorem written_ne_nil {ms : List Method} (hne : ms ≠ []) : written ms ≠ [] := by
  intro h
  have hmap : (written ms).map RawSymbol.name = (sorted ms).map Method.name :=
    map_written (fun _ _ => rfl) (fun _ => rfl) ms
  rw [h, List.map_nil] at hmap
  exact sorted_ne_nil hne (List.map_eq_nil_iff.mp hmap.symm)

theorem extract_nil : extractRawSymbolFromObjcSymbols [] = .error .valueError := by decide

theorem readObjcSymbols_eq_some_iff {ms : List Method} {symbols : List (Symbol T)} :
    readObjcSymbols T (ms.map line) = some symbols ↔
      ms ≠ [] ∧ IsUtf8 (formatSymbols (written ms)) ∧ (∀ s ∈ written ms, s.Readable) ∧
        symbols = (written ms).map (RawSymbol.readBack T) := by
  by_cases hne : ms = []
  · subst hne
    constructor
    · intro h
      rw [readObjcSymbols, List.map_nil, extract_nil] at h
      cases h
    · rintro ⟨h, -⟩
      exact absurd rfl h
  · have hnames : ∀ s ∈ written ms, newline ∉ s.name := by
      intro s hs
      obtain ⟨m, -, hname, -⟩ := mem_written hs
      rw [hname]
      exact m.name_line
    have hread : readObjcSymbols T (ms.map line) =
        (readRawSymbolData T (formatSymbols (written ms))).toOption := by
      unfold readObjcSymbols
      rw [extract_lines hne]
      rfl
    rw [hread, toOption_eq_some, readRawSymbolData_eq_ok_iff (written_ne_nil hne) hnames]
    exact ⟨fun h => ⟨hne, h⟩, fun h => h.2⟩

/-- What every run of the path knows: the tables hold the written symbols in their order. -/
theorem prepareObjcBuffers_eq_some {stack : StackContents} {arch : Arch} {ms : List Method}
    {b : Macho.Buffers} (h : prepareObjcBuffers stack arch (ms.map line) = some b) :
    ms ≠ [] ∧ ∃ strx,
      b.symbols = ((written ms).map (RawSymbol.readBack arch.addrType)).flatMap
        (SymbolTable.recordBytes strx) ∧
      b.debugInfo = DwarfDebugInfoSection.infoBytes strx
        ((written ms).map (RawSymbol.readBack arch.addrType)) := by
  obtain ⟨symbols, hread, h⟩ := Option.bind_eq_some_iff.mp h
  obtain ⟨hne, -, -, rfl⟩ := readObjcSymbols_eq_some_iff.mp hread
  exact ⟨hne, Macho.prepareBuffers_bytes (toOption_eq_some.mp h)⟩

/-- Names without tabs and addresses in front of the last page of 64 bits are read. -/
theorem written_readable {ms : List Method} (htab : ∀ m ∈ ms, tab ∉ m.name)
    (haddress : ∀ m ∈ ms, m.address + 0x1000 ≤ 2 ^ 64) : ∀ s ∈ written ms, s.Readable := by
  intro s hs
  obtain ⟨m, hm, hname, hstart, n, hn, hfin⟩ := mem_written hs
  have hmaddress := haddress m hm
  have hnaddress := haddress n hn
  refine ⟨?_, ?_, ?_⟩
  · rw [hname]
    exact htab m hm
  · omega
  · omega

theorem prepareObjcBuffers_returns (stack : StackContents) (arch : Arch) {ms : List Method}
    (hne : ms ≠ []) (htab : ∀ m ∈ ms, tab ∉ m.name) (hutf : ∀ m ∈ ms, IsUtf8 m.name)
    (haddress : ∀ m ∈ ms, m.address + 0x1000 ≤ 2 ^ 64)
    (hnames : (StringTable.concatNames ((sorted ms).map fun m => cStr m.name)).length < 2 ^ 32) :
    ∃ b, prepareObjcBuffers stack arch (ms.map line) = some b := by
  have hwritten : ∀ s ∈ written ms, IsUtf8 s.name := by
    intro s hs
    obtain ⟨m, hm, hname, -⟩ := mem_written hs
    rw [hname]
    exact hutf m hm
  have hread : readObjcSymbols arch.addrType (ms.map line) =
      some ((written ms).map (RawSymbol.readBack arch.addrType)) :=
    readObjcSymbols_eq_some_iff.mpr
      ⟨hne, isUtf8_formatSymbols hwritten, written_readable htab haddress, rfl⟩
  have hmap : ((written ms).map (RawSymbol.readBack arch.addrType)).map Symbol.name =
      (sorted ms).map fun m => cStr m.name := by
    rw [List.map_map]
    exact map_written (fun _ _ => rfl) (fun _ => rfl) ms
  have hbuffers := Macho.prepareBuffers_ok stack ((written ms).map (RawSymbol.readBack arch.addrType))
    (by rw [hmap]; exact hnames)
  have hrun : prepareObjcBuffers stack arch (ms.map line) = (Macho.prepareBuffers stack
      ((written ms).map (RawSymbol.readBack arch.addrType))).toOption := by
    unfold prepareObjcBuffers
    rw [hread]
    rfl
  exact ⟨_, hrun.trans (toOption_eq_some.mpr hbuffers)⟩

end Method
end DSYMCreator
