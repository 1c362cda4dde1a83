import DSYMCreator.Runs.Exactly
import DSYMCreator.Script.DumpDocument
import DSYMCreator.Script.DumpRuns

/-!
# When the dump returns and what it prints

Each part of the script is matched with its lines of the document: started at a
spot of the image, the part returns exactly when the bytes that it reads are in the
file, and then it has printed these lines and stands at the next spot. The whole
script compares the sizes that it was told with the way it went, so it returns on
the well-formed images and on nothing else, with their document as output.
-/
namespace MachoDump

open Text Python Binary MachO Runs

/-- What changes in a reader besides the lines that it printed. -/
structure Spot where
  pos : ℕ
  table : Option Bytes

/-- The reader that has the image open at a spot, with these lines printed. -/
def readerAt (m : Image) (s : Spot) (printed : List Bytes) : Reader :=
  ⟨m.file, m.isLSB, m.is64Bit, s.pos, s.table, printed⟩

/-- From one spot to the next the part returns `a` exactly under `c`, and prints these lines. -/
def Writes (m : Image) (s : Spot) {α : Type} (p : Dump α) (c : Prop) (a : α) (s' : Spot)
    (ls : List Bytes) : Prop :=
  ∀ printed, Exactly p (readerAt m s printed) c a (readerAt m s' (printed ++ ls))

variable {α β : Type} {p : Dump α} {q : α → Dump β} {m : Image} {s s' s'' : Spot} {a : α} {b : β}
  {c d : Prop} {ls ks : List Bytes} {n pos : ℕ} {table : Option Bytes} {t : String}

theorem Writes.bind (hp : Writes m s p c a s' ls) (hq : c → Writes m s' (q a) d b s'' ks) :
    Writes m s (p >>= q) (c ∧ d) b s'' (ls ++ ks) := by
  intro printed
  have h := Exactly.bind (hp printed) fun hc => hq hc (printed ++ ls)
  rwa [List.append_assoc] at h

theorem Writes.of_eq (h : Writes m s p c a s' ls) (hcd : c ↔ d) (hs : d → s' = s'' ∧ ls = ks) :
    Writes m s p d a s'' ks := by
  intro printed
  apply (h printed).of_eq hcd
  intro hd
  obtain ⟨rfl, rfl⟩ := hs hd
  exact ⟨rfl, rfl⟩

theorem Writes.of_silent (h : ∀ printed, Exactly p (readerAt m s printed) c a (readerAt m s' printed)) :
    Writes m s p c a s' [] := by
  intro printed
  rw [List.append_nil]
  exact h printed

/-! ## Statements -/

theorem writes_pure (a : α) : Writes m s (pure a) True a s [] :=
  Writes.of_silent fun _ => exactly_pure a _

theorem writes_print (l : Bytes) : Writes m s (print l) True () s [l] :=
  fun _ => exactly_modify _ _

theorem writes_tell : Writes m ⟨pos, table⟩ tell True pos ⟨pos, table⟩ [] := by
  apply Writes.of_silent
  intro printed
  have h : Exactly tell (readerAt m ⟨pos, table⟩ printed) (True ∧ True) pos _ :=
    (exactly_get _).bind fun _ => exactly_pure _ _
  exact h.cond_iff and_self_iff

theorem writes_getIs64Bit : Writes m s getIs64Bit True m.is64Bit s [] := by
  apply Writes.of_silent
  intro printed
  have h : Exactly getIs64Bit (readerAt m s printed) (True ∧ True) m.is64Bit _ :=
    (exactly_get _).bind fun _ => exactly_pure _ _
  exact h.cond_iff and_self_iff

theorem writes_seek (prevPos : ℕ) :
    Writes m ⟨prevPos, table⟩ (seek pos) True () ⟨pos, table⟩ [] :=
  Writes.of_silent fun _ => exactly_modify _ _

theorem writes_read (n : ℕ) :
    Writes m ⟨pos, table⟩ (read n) (m.Spans pos n) (m.bytes pos n) ⟨pos + n, table⟩ [] := by
  apply Writes.of_silent
  intro printed
  have hdata : (readerAt m ⟨pos, table⟩ printed).fileRead n = m.bytes pos n := by
    unfold Reader.fileRead
    rw [if_neg (by omega)]
    rfl
  have h : Exactly (read n) (readerAt m ⟨pos, table⟩ printed)
      (True ∧ True ∧ (((readerAt m ⟨pos, table⟩ printed).fileRead n).length : ℤ) = n ∧ True)
      ((readerAt m ⟨pos, table⟩ printed).fileRead n)
      (readerAt m ⟨pos + ((readerAt m ⟨pos, table⟩ printed).fileRead n).length, table⟩ printed) :=
    (exactly_get _).bind fun _ => (exactly_set _ _).bind fun _ => (exactly_pure _ _).guarded _
  rw [hdata] at h
  refine h.of_eq ?_ fun hspans => ⟨rfl, ?_⟩
  · rw [true_and, true_and, and_true, Nat.cast_inj]
    exact Image.length_bytes
  · rw [Image.length_bytes.mpr hspans]

theorem writes_readNumber (n : ℕ) (hn : 0 < n := by decide) :
    Writes m ⟨pos, table⟩ (readNumber n) (pos + n ≤ m.file.length) (m.number pos n)
      ⟨pos + n, table⟩ [] := by
  apply Writes.of_silent
  intro printed
  have h : Exactly (readNumber n) (readerAt m ⟨pos, table⟩ printed) (m.Spans pos n ∧ True ∧ True)
      (m.number pos n) (readerAt m ⟨pos + n, table⟩ (printed ++ [])) :=
    Exactly.bind (writes_read n printed) fun _ => (exactly_get _).bind fun _ => exactly_pure _ _
  rw [List.append_nil] at h
  apply h.cond_iff
  rw [and_true, and_true]
  exact Image.spans_of_pos hn

theorem Writes.ite {wide : Bool} {p p' : Dump α} (hp : wide = true → Writes m s p c a s' ls)
    (hp' : wide = false → Writes m s p' c a s' ls) :
    Writes m s (if wide then p else p') c a s' ls := by
  cases wide with
  | false => exact hp' rfl
  | true => exact hp rfl

/-! ## Lines -/

theorem writes_printNat (v : ℕ) : Writes m s (printNat t v) True () s [natLine t v] :=
  writes_print _

theorem writes_printHex (v : ℕ) : Writes m s (printHex t v) True () s [hexLine t v] :=
  writes_print _

theorem writes_printStr (w : Bytes) : Writes m s (printStr t w) True () s [strLine t w] :=
  writes_print _

theorem writes_printRead16Bytes :
    Writes m ⟨pos, table⟩ (printRead16Bytes t) (pos + 16 ≤ m.file.length) () ⟨pos + 16, table⟩
      [strLine t (m.bytes pos 16)] :=
  ((writes_read 16).bind fun _ => writes_printStr _).of_eq
    (by rw [and_true]; exact Image.spans_of_pos (by norm_num)) fun _ => ⟨rfl, rfl⟩

theorem writes_printRead32 :
    Writes m ⟨pos, table⟩ (printRead32 t) (pos + 4 ≤ m.file.length) () ⟨pos + 4, table⟩
      [natLine t (m.u32 pos)] :=
  ((writes_readNumber 4).bind fun _ => writes_printNat _).of_eq (and_iff_left trivial)
    fun _ => ⟨rfl, rfl⟩

theorem writes_printRead64 :
    Writes m ⟨pos, table⟩ (printRead64 t) (pos + 8 ≤ m.file.length) () ⟨pos + 8, table⟩
      [natLine t (m.u64 pos)] :=
  ((writes_readNumber 8).bind fun _ => writes_printNat _).of_eq (and_iff_left trivial)
    fun _ => ⟨rfl, rfl⟩

/-! ## Loops -/

theorem writes_forFrom {body : ℕ → Dump Unit} {i n : ℕ} (spot : ℕ → Spot) (ok : ℕ → Prop)
    (lines : ℕ → List Bytes)
    (h : ∀ j < n, Writes m (spot j) (body (i + j)) (ok j) () (spot (j + 1)) (lines j)) :
    Writes m (spot 0) (forFrom body i n) (∀ j < n, ok j) () (spot n)
      ((List.range n).flatMap lines) := by
  induction n generalizing i spot ok lines with
  | zero => exact (writes_pure ()).of_eq (by simp) fun _ => ⟨rfl, rfl⟩
  | succ n ih =>
    have hrest := ih (i := i + 1) (fun j => spot (j + 1)) (fun j => ok (j + 1))
      (fun j => lines (j + 1)) fun j hj => by
        have hindex : i + 1 + j = i + (j + 1) := by omega
        rw [hindex]
        exact h (j + 1) (by omega)
    refine ((h 0 (Nat.succ_pos n)).bind fun _ => hrest).of_eq ?_ fun _ => ⟨rfl, ?_⟩
    · exact Nat.forall_lt_succ_left.symm
    · rw [List.range_succ_eq_map, List.flatMap_cons, List.flatMap_map]

theorem forall_fits_iff {pos size n : ℕ} :
    (∀ j < n, pos + j * size + size ≤ m.file.length) ↔ n = 0 ∨ pos + n * size ≤ m.file.length := by
  constructor
  · intro h
    cases n with
    | zero => exact Or.inl rfl
    | succ k =>
      have hlast := h k (Nat.lt_succ_self k)
      rw [Nat.succ_mul]
      omega
  · intro h j hj
    have hend : (j + 1) * size ≤ n * size := Nat.mul_le_mul_right size hj
    rw [Nat.succ_mul] at hend
    omega

theorem writes_entries {body : ℕ → Dump Unit} {size : ℕ} (ok : ℕ → Prop) (lines : ℕ → List Bytes)
    (h : ∀ j < n, Writes m ⟨pos + j * size, table⟩ (body j) (ok j) ()
      ⟨pos + j * size + size, table⟩ (lines j)) :
    Writes m ⟨pos, table⟩ (forRange n body) (∀ j < n, ok j) () ⟨pos + n * size, table⟩
      ((List.range n).flatMap lines) := by
  have hloop := writes_forFrom (m := m) (i := 0) (fun j => ⟨pos + j * size, table⟩) ok lines
    fun j hj => by
      rw [Nat.zero_add, Nat.succ_mul, ← Nat.add_assoc]
      exact h j hj
  rwa [Nat.zero_mul, Nat.add_zero] at hloop

/-- A table somewhere else in the file, and the way back. -/
theorem writes_table {body : ℕ → Dump Unit} {start prevPos size : ℕ} (ok : ℕ → Prop)
    (lines : ℕ → List Bytes)
    (h : ∀ j < n, Writes m ⟨pos + j * size, table⟩ (body j) (ok j) ()
      ⟨pos + j * size + size, table⟩ (lines j)) :
    Writes m ⟨start, table⟩ (seek pos >>= fun _ => print (ascii t) >>= fun _ =>
        forRange n body >>= fun _ => print (ascii "  ])") >>= fun _ => seek prevPos)
      (∀ j < n, ok j) () ⟨prevPos, table⟩
      ([ascii t] ++ (List.range n).flatMap lines ++ [ascii "  ])"]) := by
  refine ((writes_seek start).bind fun _ => (writes_print _).bind fun _ =>
    (writes_entries ok lines h).bind fun _ => (writes_print _).bind fun _ =>
    writes_seek _).of_eq ?_ fun _ => ⟨rfl, ?_⟩
  · simp
  · simp

/-! ## Sections and segments -/

theorem writes_relocation (i : ℕ) :
    Writes m ⟨pos, table⟩ (dumpRelocation i) (pos + 8 ≤ m.file.length) () ⟨pos + 8, table⟩
      (relocationLines m pos i) := by
  refine ((writes_printNat i).bind fun _ => (writes_readNumber 4).bind fun _ =>
    (writes_printHex _).bind fun _ => (writes_readNumber 4).bind fun _ =>
    writes_printHex _).of_eq ?_ fun _ => ⟨rfl, rfl⟩
  simp only [true_and, and_true]
  omega

theorem writes_sectionRange (wide : Bool) (off : ℕ) :
    Writes m ⟨off + 32, table⟩ (if wide then do
          printRead64 "    ('address', %r)"
          let size ← read64
          printNat "    ('size', %r)" size
        else do
          printRead32 "    ('address', %r)"
          let size ← read32
          printNat "    ('size', %r)" size)
      (Image.sectionTail wide off ≤ m.file.length) () ⟨Image.sectionTail wide off, table⟩
      (sectionRangeLines m wide off) := by
  apply Writes.ite
  · rintro rfl
    refine (writes_printRead64.bind fun _ => (writes_readNumber 8).bind fun _ =>
      writes_printNat _).of_eq ?_ fun _ => ⟨rfl, rfl⟩
    simp only [and_true, Image.sectionTail, reduceIte]
    omega
  · rintro rfl
    refine (writes_printRead32.bind fun _ => (writes_readNumber 4).bind fun _ =>
      writes_printNat _).of_eq ?_ fun _ => ⟨rfl, rfl⟩
    simp only [and_true, Image.sectionTail, Bool.false_eq_true, reduceIte]
    omega

theorem writes_reserved (wide : Bool) :
    Writes m ⟨pos, table⟩ (if wide then printRead32 t else pure ())
      (wide = true → pos + 4 ≤ m.file.length) ()
      ⟨pos + if wide then 4 else 0, table⟩ (if wide then fieldLines m pos [t] else []) := by
  cases wide with
  | false => exact (writes_pure ()).of_eq (by simp) fun _ => ⟨rfl, rfl⟩
  | true =>
    exact writes_printRead32.of_eq (by simp) fun _ => ⟨rfl, rfl⟩

theorem writes_relocations (relocOffset numReloc : ℕ) :
    Writes m ⟨pos, table⟩ (tell >>= fun prevPos => seek relocOffset >>= fun _ =>
        print (ascii "  ('_relocations', [") >>= fun _ => forRange numReloc dumpRelocation >>= fun _ =>
        print (ascii "  ])") >>= fun _ => seek prevPos)
      (m.Spans relocOffset (8 * numReloc)) () ⟨pos, table⟩
      ([ascii "  ('_relocations', ["] ++ (List.range numReloc).flatMap
        (fun j => relocationLines m (relocOffset + j * 8) j) ++ [ascii "  ])"]) := by
  refine (writes_tell.bind fun _ => writes_table _ _ fun j _ => writes_relocation j).of_eq ?_
    fun _ => ⟨rfl, rfl⟩
  rw [true_and]
  apply forall_fits_iff.trans
  unfold Image.Spans
  omega

theorem writes_section (off i : ℕ) (wide : Bool) :
    Writes m ⟨off, table⟩ (dumpSection i wide)
      (off + Image.sectionSize wide ≤ m.file.length ∧ m.SectionInside wide off) ()
      ⟨off + Image.sectionSize wide, table⟩ (sectionLines m wide off i) := by
  refine ((writes_printNat i).bind fun _ =>
    writes_printRead16Bytes.bind fun _ =>
    writes_printRead16Bytes.bind fun _ =>
    (writes_sectionRange wide off).bind fun _ =>
    (writes_readNumber 4).bind fun _ => (writes_printNat _).bind fun _ =>
    writes_printRead32.bind fun _ =>
    (writes_readNumber 4).bind fun _ => (writes_printNat _).bind fun _ =>
    (writes_readNumber 4).bind fun _ => (writes_printNat _).bind fun _ =>
    (writes_readNumber 4).bind fun _ => (writes_printHex _).bind fun _ =>
    writes_printRead32.bind fun _ =>
    writes_printRead32.bind fun _ =>
    (writes_reserved wide).bind fun _ =>
    (writes_print _).bind fun _ =>
    writes_relocations _ _).of_eq ?_ fun _ => ⟨?_, ?_⟩
  · unfold Image.SectionInside
    cases wide with
    | false =>
      simp only [Image.sectionSize, Image.sectionTail, Image.relocOffset, Image.relocCount,
        Image.u32, Bool.false_eq_true, reduceIte, true_and, false_implies]
      grind
    | true =>
      simp only [Image.sectionSize, Image.sectionTail, Image.relocOffset, Image.relocCount,
        Image.u32, reduceIte, true_and, true_implies]
      grind
  · cases wide <;> rfl
  · cases wide <;> rfl

theorem writes_segmentRange (wide : Bool) (off : ℕ) :
    Writes m ⟨off + 24, table⟩ (if wide then do
          printRead64 "  ('vm_addr', %r)"
          printRead64 "  ('vm_size', %r)"
          printRead64 "  ('file_offset', %r)"
          printRead64 "  ('file_size', %r)"
        else do
          printRead32 "  ('vm_addr', %r)"
          printRead32 "  ('vm_size', %r)"
          printRead32 "  ('file_offset', %r)"
          printRead32 "  ('file_size', %r)")
      (off + (Image.segmentSize wide - 16) ≤ m.file.length) ()
      ⟨off + (Image.segmentSize wide - 16), table⟩ (segmentRangeLines m wide off) := by
  apply Writes.ite
  · rintro rfl
    refine (writes_printRead64.bind fun _ => writes_printRead64.bind fun _ =>
      writes_printRead64.bind fun _ => writes_printRead64).of_eq ?_ fun _ => ⟨rfl, rfl⟩
    simp only [Image.segmentSize, reduceIte]
    omega
  · rintro rfl
    refine (writes_printRead32.bind fun _ => writes_printRead32.bind fun _ =>
      writes_printRead32.bind fun _ => writes_printRead32).of_eq ?_ fun _ => ⟨rfl, rfl⟩
    simp only [Image.segmentSize, Bool.false_eq_true, reduceIte]
    omega

theorem writes_sections (wide : Bool) (off n : ℕ) :
    Writes m ⟨off + (Image.segmentSize wide - 16) + 4 + 4 + 4 + 4, table⟩
      (print (ascii "  ('sections', [") >>= fun _ =>
        forRange n (fun i => dumpSection i wide) >>= fun _ => print (ascii "  ])"))
      ((n = 0 ∨ off + Image.segmentSize wide + n * Image.sectionSize wide ≤ m.file.length) ∧
        ∀ i < n, m.SectionInside wide (Image.sectionOffset wide off i)) ()
      ⟨off + Image.segmentSize wide + n * Image.sectionSize wide, table⟩
      ([ascii "  ('sections', ["] ++ (List.range n).flatMap (fun i =>
        sectionLines m wide (Image.sectionOffset wide off i) i) ++ [ascii "  ])"]) := by
  have hstart : off + (Image.segmentSize wide - 16) + 4 + 4 + 4 + 4 = off + Image.segmentSize wide := by
    cases wide <;> rfl
  rw [hstart]
  refine ((writes_print _).bind fun _ =>
    (writes_entries _ _ fun j _ => writes_section _ j wide).bind fun _ => writes_print _).of_eq ?_
    fun _ => ⟨rfl, by simp [Image.sectionOffset]⟩
  simp only [true_and, and_true, forall_and]
  exact and_congr_left' forall_fits_iff

/-- The body of a segment command stands 8 bytes behind the command. -/
theorem writes_segment (wide : Bool) (off : ℕ) :
    Writes m ⟨off + 8, table⟩ (dumpSegmentLoadCommand wide)
      (off + (Image.segmentSize wide + m.sectionCount wide off * Image.sectionSize wide) ≤
          m.file.length ∧
        ∀ i < m.sectionCount wide off, m.SectionInside wide (Image.sectionOffset wide off i)) ()
      ⟨off + (Image.segmentSize wide + m.sectionCount wide off * Image.sectionSize wide), table⟩
      (segmentLines m wide off) := by
  have hcount : m.number (off + (Image.segmentSize wide - 16) + 4 + 4) 4 = m.sectionCount wide off := by
    cases wide <;> rfl
  refine (writes_printRead16Bytes.bind fun _ =>
    (writes_segmentRange wide off).bind fun _ =>
    writes_printRead32.bind fun _ =>
    writes_printRead32.bind fun _ =>
    (writes_readNumber 4).bind fun _ => (writes_printNat _).bind fun _ =>
    writes_printRead32.bind fun _ => writes_sections wide off _).of_eq ?_ fun _ => ⟨?_, ?_⟩
  · rw [hcount]
    cases wide with
    | false =>
      simp only [Image.segmentSize, Bool.false_eq_true, reduceIte, true_and]
      grind
    | true =>
      simp only [Image.segmentSize, reduceIte, true_and]
      grind
  · rw [hcount, Nat.add_assoc]
  · simp [segmentLines, fieldLines, Image.u32, ← hcount]

/-! ## Symbols -/

theorem writes_getString (strings : Bytes) (index : ℕ) :
    Writes m ⟨pos, some strings⟩ (getString index) (0 ∈ strings.drop index)
      (Image.nameAt strings index) ⟨pos, some strings⟩ [] := by
  apply Writes.of_silent
  intro printed
  have h : Exactly (getString index) (readerAt m ⟨pos, some strings⟩ printed)
      (True ∧ 0 ∈ strings.drop index ∧ True) (Image.nameAt strings index) _ :=
    (exactly_get _).bind fun _ => (exactly_pure _ _).guarded _
  exact h.cond_iff (by simp)

theorem writes_value (wide : Bool) :
    Writes m ⟨pos, table⟩ (if wide then do
          let nValue ← read64
          printNat "    ('n_value', %r)" nValue
        else do
          let nValue ← read32
          printNat "    ('n_value', %r)" nValue)
      (pos + (if wide then 8 else 4) ≤ m.file.length) () ⟨pos + (if wide then 8 else 4), table⟩
      [natLine "    ('n_value', %r)" (m.number pos (if wide then 8 else 4))] := by
  apply Writes.ite
  · rintro rfl
    exact ((writes_readNumber 8).bind fun _ => writes_printNat _).of_eq (and_iff_left trivial)
      fun _ => ⟨rfl, rfl⟩
  · rintro rfl
    exact ((writes_readNumber 4).bind fun _ => writes_printNat _).of_eq (and_iff_left trivial)
      fun _ => ⟨rfl, rfl⟩

theorem writes_nlist (strings : Bytes) (i : ℕ) :
    Writes m ⟨pos, some strings⟩ (dumpNlist32 i)
      (pos + m.nlistSize ≤ m.file.length ∧ 0 ∈ strings.drop (m.u32 pos)) ()
      ⟨pos + m.nlistSize, some strings⟩ (symbolLines m strings pos i) := by
  refine ((writes_printNat i).bind fun _ =>
    (writes_readNumber 4).bind fun _ => (writes_printNat _).bind fun _ =>
    (writes_readNumber 1).bind fun _ => (writes_printHex _).bind fun _ =>
    (writes_readNumber 1).bind fun _ => (writes_printNat _).bind fun _ =>
    (writes_readNumber 2).bind fun _ => (writes_printNat _).bind fun _ =>
    writes_getIs64Bit.bind fun _ => (writes_value m.is64Bit).bind fun _ =>
    (writes_getString strings _).bind fun _ => (writes_printStr _).bind fun _ =>
    writes_print _).of_eq ?_ fun _ => ⟨?_, ?_⟩
  · cases hwide : m.is64Bit with
    | false =>
      simp only [Image.nlistSize, Image.u32, hwide, Bool.false_eq_true, reduceIte, true_and, and_true]
      grind
    | true =>
      simp only [Image.nlistSize, Image.u32, hwide, reduceIte, true_and, and_true]
      grind
  · cases hwide : m.is64Bit <;> simp [Image.nlistSize, hwide, Nat.add_assoc]
  · cases hwide : m.is64Bit <;> simp [symbolLines, Image.nlistSize, Image.u32, hwide, Nat.add_assoc]

/-- The first string table is the only one. -/
theorem writes_registerStringTable (strings : Bytes) :
    Writes m ⟨pos, table⟩ (registerStringTable strings) (table = none) () ⟨pos, some strings⟩ [] := by
  apply Writes.of_silent
  intro printed
  have h : Exactly (registerStringTable strings) (readerAt m ⟨pos, table⟩ printed)
      (True ∧ table = none ∧ True) () (readerAt m ⟨pos, some strings⟩ printed) :=
    (exactly_get _).bind fun _ => (exactly_set _ _).guarded _
  exact h.cond_iff (by simp)

theorem writes_stringsAndSymbols (symoff nsyms stroff strsize : ℕ) :
    Writes m ⟨pos, table⟩ (dumpStringsAndSymbols symoff nsyms stroff strsize)
      (m.Spans stroff strsize ∧ table = none ∧
        ∀ i < nsyms, symoff + i * m.nlistSize + m.nlistSize ≤ m.file.length ∧
          0 ∈ (m.bytes stroff strsize).drop (m.u32 (symoff + i * m.nlistSize))) ()
      ⟨pos, some (m.bytes stroff strsize)⟩
      ([strLine "  ('_string_data', %r)" (m.bytes stroff strsize), ascii "  ('_symbols', ["] ++
        (List.range nsyms).flatMap (fun i =>
          symbolLines m (m.bytes stroff strsize) (symoff + i * m.nlistSize) i) ++
        [ascii "  ])"]) := by
  refine (writes_tell.bind fun _ => (writes_seek _).bind fun _ =>
    (writes_read strsize).bind fun _ => (writes_printStr _).bind fun _ =>
    (writes_registerStringTable _).bind fun _ =>
    writes_table _ _ fun j _ => writes_nlist _ j).of_eq ?_ fun _ => ⟨rfl, ?_⟩
  · simp only [true_and]
  · simp

theorem writes_symtab (off : ℕ) :
    Writes m ⟨off + 8, table⟩ dumpSymtabCommand
      (off + 24 ≤ m.file.length ∧ table = none ∧ m.SymbolsInside off) ()
      ⟨off + 24, some (m.stringTable off)⟩ (symtabLines m off) := by
  refine ((writes_readNumber 4).bind fun _ => (writes_printNat _).bind fun _ =>
    (writes_readNumber 4).bind fun _ => (writes_printNat _).bind fun _ =>
    (writes_readNumber 4).bind fun _ => (writes_printNat _).bind fun _ =>
    (writes_readNumber 4).bind fun _ => (writes_printNat _).bind fun _ =>
    writes_stringsAndSymbols _ _ _ _).of_eq ?_ fun _ => ⟨rfl, rfl⟩
  constructor
  · rintro ⟨-, -, -, -, -, -, hend, -, hstrings, hnone, hsymbols⟩
    exact ⟨hend, hnone, hstrings, fun i hi => (hsymbols i hi).1, fun i hi => (hsymbols i hi).2⟩
  · rintro ⟨hend, hnone, hstrings, hentries, hnames⟩
    have hinside (k : ℕ) (hk : k ≤ 24) : off + k ≤ m.file.length := by omega
    exact ⟨hinside 12 (by norm_num), trivial, hinside 16 (by norm_num), trivial,
      hinside 20 (by norm_num), trivial, hend, trivial, hstrings, hnone,
      fun i hi => ⟨hentries i hi, hnames i hi⟩⟩

/-! ## Load commands -/

theorem writes_indirectSymbol (i : ℕ) :
    Writes m ⟨pos, table⟩ (dumpIndirectSymbol i) (pos + 4 ≤ m.file.length) () ⟨pos + 4, table⟩
      (indirectSymbolLines m pos i) := by
  refine ((writes_printNat i).bind fun _ => (writes_readNumber 4).bind fun _ =>
    writes_printHex _).of_eq ?_ fun _ => ⟨rfl, rfl⟩
  simp only [true_and, and_true]

theorem writes_dysymtab (off : ℕ) :
    Writes m ⟨off + 8, table⟩ dumpDysymtabCommand
      (off + 80 ≤ m.file.length ∧ m.Spans (m.u32 (off + 56)) (4 * m.u32 (off + 60))) ()
      ⟨off + 80, table⟩ (dysymtabLines m off) := by
  refine (writes_printRead32.bind fun _ => writes_printRead32.bind fun _ =>
    writes_printRead32.bind fun _ => writes_printRead32.bind fun _ =>
    writes_printRead32.bind fun _ => writes_printRead32.bind fun _ =>
    writes_printRead32.bind fun _ => writes_printRead32.bind fun _ =>
    writes_printRead32.bind fun _ => writes_printRead32.bind fun _ =>
    writes_printRead32.bind fun _ => writes_printRead32.bind fun _ =>
    (writes_readNumber 4).bind fun _ => (writes_printNat _).bind fun _ =>
    (writes_readNumber 4).bind fun _ => (writes_printNat _).bind fun _ =>
    writes_printRead32.bind fun _ => writes_printRead32.bind fun _ =>
    writes_printRead32.bind fun _ => writes_printRead32.bind fun _ =>
    writes_tell.bind fun _ =>
    writes_table _ _ fun j _ => writes_indirectSymbol j).of_eq ?_ fun _ => ⟨rfl, ?_⟩
  · have hspans : (∀ j < m.u32 (off + 60), m.u32 (off + 56) + j * 4 + 4 ≤ m.file.length) ↔
        m.Spans (m.u32 (off + 56)) (4 * m.u32 (off + 60)) := by
      apply forall_fits_iff.trans
      unfold Image.Spans
      omega
    rw [← hspans]
    simp only [Image.u32, true_and]
    grind
  · simp [dysymtabLines, fieldLines, Image.u32]

theorem writes_uuid (off : ℕ) :
    Writes m ⟨off + 8, table⟩ (do print (fill "  ('uuid', %s)" (uuidText (← read 16))))
      (off + 24 ≤ m.file.length) () ⟨off + 24, table⟩
      [fill "  ('uuid', %s)" (uuidText (m.bytes (off + 8) 16))] := by
  refine (Writes.bind (q := fun data => print (fill "  ('uuid', %s)" (uuidText data)))
    (writes_read 16) fun _ => writes_print _).of_eq ?_ fun _ => ⟨rfl, rfl⟩
  rw [and_true]
  exact Image.spans_of_pos (by norm_num)

theorem writes_read_negative {len : ℤ} (hlen : len < 0) (data : Bytes) :
    Writes m s (read len) False data s' [] := by
  apply Writes.of_silent
  intro printed
  have h : Exactly (read len) (readerAt m s printed)
      (True ∧ True ∧ (((readerAt m s printed).fileRead len).length : ℤ) = len ∧ True) _ _ :=
    (exactly_get _).bind fun _ => (exactly_set _ _).bind fun _ => (exactly_pure _ _).guarded _
  apply h.of_eq
  · constructor
    · rintro ⟨-, -, hlength, -⟩
      omega
    · exact False.elim
  · exact False.elim

/-- A command that is only skipped; without a size for its own two fields it cannot be. -/
theorem writes_skip (off cmdSize : ℕ) :
    Writes m ⟨off + 8, table⟩ (do let _ ← read ((cmdSize : ℤ) - 8))
      (8 ≤ cmdSize ∧ m.Spans (off + 8) (cmdSize - 8)) () ⟨off + cmdSize, table⟩ [] := by
  by_cases hsize : 8 ≤ cmdSize
  · obtain ⟨k, rfl⟩ := Nat.exists_eq_add_of_le hsize
    have hk : ((8 + k : ℕ) : ℤ) - 8 = (k : ℕ) := by omega
    rw [hk, Nat.add_sub_cancel_left]
    refine (Writes.bind (q := fun _ => pure ()) (writes_read k) fun _ => writes_pure _).of_eq ?_
      fun _ => ⟨?_, rfl⟩
    · simp
    · rw [Nat.add_assoc]
  · refine (Writes.bind (q := fun _ => pure ()) (writes_read_negative (by omega) [])
      fun _ => writes_pure ()).of_eq ?_ fun _ => ⟨rfl, rfl⟩
    simp [hsize]

theorem dumpCommandBody_eq (off cmdSize : ℕ) :
    dumpCommandBody (m.u32 off) cmdSize = match m.kindAt off with
      | .segment wide => dumpSegmentLoadCommand wide
      | .symtab => dumpSymtabCommand
      | .dysymtab => dumpDysymtabCommand
      | .uuid => (do print (fill "  ('uuid', %s)" (uuidText (← read 16))))
      | .other => (do let _ ← read ((cmdSize : ℤ) - 8)) := by
  unfold dumpCommandBody Image.kindAt commandKind
  split_ifs <;> rfl

/-- The string table that is known behind a command. -/
def tableAfter (m : Image) (off : ℕ) (table : Option Bytes) : Option Bytes :=
  if m.kindAt off = .symtab then some (m.stringTable off) else table

/-- What the script needs of the bytes behind the two fields of a command. -/
structure BodyFits (m : Image) (off : ℕ) (table : Option Bytes) : Prop where
  inside : off + m.extent off ≤ m.file.length
  pointers : m.PointersInside off
  first : m.kindAt off = .symtab → table = none
  skipped : m.kindAt off = .other → 8 ≤ m.u32 (off + 4)

theorem writes_body (off : ℕ) (hfields : off + 8 ≤ m.file.length) :
    Writes m ⟨off + 8, table⟩ (dumpCommandBody (m.u32 off) (m.u32 (off + 4)))
      (BodyFits m off table) () ⟨off + m.extent off, tableAfter m off table⟩
      (bodyLines m off) := by
  rw [dumpCommandBody_eq]
  have hfits : BodyFits m off table ↔ off + m.extent off ≤ m.file.length ∧ m.PointersInside off ∧
      (m.kindAt off = .symtab → table = none) ∧ (m.kindAt off = .other → 8 ≤ m.u32 (off + 4)) :=
    ⟨fun h => ⟨h.inside, h.pointers, h.first, h.skipped⟩, fun ⟨h₁, h₂, h₃, h₄⟩ => ⟨h₁, h₂, h₃, h₄⟩⟩
  rw [hfits]
  unfold Image.extent Image.PointersInside tableAfter bodyLines
  cases hkind : m.kindAt off with
  | segment wide => exact (writes_segment wide off).of_eq (by simp) fun _ => ⟨rfl, rfl⟩
  | symtab => exact (writes_symtab off).of_eq (by simp; tauto) fun _ => ⟨rfl, rfl⟩
  | dysymtab => exact (writes_dysymtab off).of_eq (by simp) fun _ => ⟨rfl, rfl⟩
  | uuid => exact (writes_uuid off).of_eq (by simp) fun _ => ⟨rfl, rfl⟩
  | other =>
    refine (writes_skip off (m.u32 (off + 4))).of_eq ?_ fun h => ⟨?_, rfl⟩
    · simp [Image.Spans]
      omega
    · rw [max_eq_right (h.2.2.2 rfl)]
      rfl

theorem writes_check [Decidable d] (e : Error) :
    Writes m s (if d then throw e else pure ()) (¬ d) () s [] :=
  Writes.of_silent fun _ => exactly_check e _

theorem eight_le_extent (off : ℕ) : 8 ≤ m.extent off := by
  unfold Image.extent Image.segmentSize
  split
  · split_ifs <;> omega
  · norm_num
  · norm_num
  · norm_num
  · exact le_max_left _ _

/-- A command ends where its size says, or the script raises. -/
theorem writes_loadCommand (off i : ℕ) :
    Writes m ⟨off, table⟩ (dumpLoadCommand i)
      (m.CommandFits off ∧ (m.kindAt off = .symtab → table = none)) ()
      ⟨off + m.u32 (off + 4), tableAfter m off table⟩ (commandLines m off i) := by
  have hcheck : Writes m ⟨off + m.extent off, tableAfter m off table⟩ (do
      if ((← tell : ℕ) : ℤ) - (off : ℕ) ≠ (m.u32 (off + 4) : ℕ) then throw .valueError)
      (m.u32 (off + 4) = m.extent off) () ⟨off + m.extent off, tableAfter m off table⟩ [] := by
    refine (writes_tell.bind fun _ => writes_check .valueError).of_eq ?_ fun _ => ⟨rfl, rfl⟩
    rw [true_and, not_not]
    omega
  refine (writes_tell.bind fun _ => (writes_printNat i).bind fun _ =>
    (writes_readNumber 4).bind fun _ => (writes_printNat _).bind fun _ =>
    (writes_readNumber 4).bind fun hfields => (writes_printNat _).bind fun _ =>
    (writes_body off hfields).bind fun _ => (writes_print _).bind fun _ => hcheck).of_eq ?_
    fun h => ⟨?_, ?_⟩
  · have hextent := eight_le_extent (m := m) off
    constructor
    · rintro ⟨-, -, -, -, -, -, hbody, -, hsize⟩
      exact ⟨⟨hbody.inside, hbody.pointers, hsize⟩, hbody.first⟩
    · rintro ⟨hfits, hfirst⟩
      have hinside := hfits.inside
      refine ⟨trivial, trivial, by omega, trivial, by omega, trivial,
        ⟨hfits.inside, hfits.pointers, hfirst, fun hother => ?_⟩, trivial, hfits.size⟩
      rw [hfits.size]
      exact hextent
  · rw [h.1.size]
  · simp [commandLines, fieldLines, Image.u32]

/-- At most one string table is registered, and none if there is one already. -/
def OneTable (m : Image) (offs : List ℕ) (table : Option Bytes) : Prop :=
  (offs.filter fun off => m.kindAt off = .symtab).length ≤ if table = none then 1 else 0

theorem oneTable_cons (off : ℕ) (offs : List ℕ) :
    OneTable m (off :: offs) table ↔
      (m.kindAt off = .symtab → table = none) ∧ OneTable m offs (tableAfter m off table) := by
  unfold OneTable tableAfter
  by_cases hkind : m.kindAt off = .symtab
  · by_cases hnone : table = none
    · simp [hkind, hnone]
    · simp [hkind, hnone]
  · simp [hkind]

/-- The string table that is known behind all these commands. -/
def tableAfterAll (m : Image) (offs : List ℕ) (table : Option Bytes) : Option Bytes :=
  offs.foldl (fun known off => tableAfter m off known) table

/-- The loop over the load commands; each stands behind the one before it. -/
theorem writes_loadCommands (off i n : ℕ) :
    Writes m ⟨off, table⟩ (forFrom dumpLoadCommand i n)
      ((∀ o ∈ m.commandsFrom off n, m.CommandFits o) ∧ OneTable m (m.commandsFrom off n) table) ()
      ⟨off + ((m.commandsFrom off n).map fun o => m.u32 (o + 4)).sum,
        tableAfterAll m (m.commandsFrom off n) table⟩
      (((m.commandsFrom off n).zipIdx i).flatMap fun c => commandLines m c.1 c.2) := by
  induction n generalizing off i table with
  | zero =>
    refine (writes_pure ()).of_eq ?_ fun _ => ⟨rfl, rfl⟩
    simp [Image.commandsFrom, OneTable]
  | succ n ih =>
    refine ((writes_loadCommand off i).bind fun _ => ih _ (i + 1)).of_eq ?_ fun _ => ⟨?_, ?_⟩
    · rw [Image.commandsFrom, oneTable_cons, List.forall_mem_cons]
      tauto
    · simp [Image.commandsFrom, tableAfterAll, Nat.add_assoc]
    · simp [Image.commandsFrom]

/-! ## The whole dump -/

/-- `dumpmacho` behind the magic number without its last check. The offset of the load commands
and their announced size are what the check needs. -/
def walkCommands : Dump (ℕ × ℕ) := do
  printRead32 "('cputype', %r)"
  printRead32 "('cpusubtype', %r)"
  let filetype ← read32
  printNat "('filetype', %r)" filetype
  let numLoadCommands ← read32
  printNat "('num_load_commands', %r)" filetype
  let loadCommandsSize ← read32
  printNat "('load_commands_size', %r)" loadCommandsSize
  printRead32 "('flag', %r)"
  let is64Bit ← getIs64Bit
  (if is64Bit then printRead32 "('reserved', %r)" else return)
  let start ← tell
  print (ascii "('load_commands', [")
  forRange numLoadCommands dumpLoadCommand
  print (ascii "])")
  return (start, loadCommandsSize)

theorem dumpHeaderAndCommands_eq :
    dumpHeaderAndCommands = (walkCommands >>= fun ends => do
      if ((← tell : ℕ) : ℤ) - (ends.1 : ℕ) ≠ (ends.2 : ℕ) then throw .valueError) := by
  simp [dumpHeaderAndCommands, walkCommands]

theorem writes_headerEnd :
    Writes m ⟨28, table⟩ (if m.is64Bit then printRead32 t else pure ())
      (m.is64Bit = true → 32 ≤ m.file.length) () ⟨m.headerSize, table⟩
      (if m.is64Bit then fieldLines m 28 [t] else []) := by
  have hsize : m.headerSize = 28 + if m.is64Bit then 4 else 0 := by
    unfold Image.headerSize
    split_ifs <;> rfl
  exact (writes_reserved m.is64Bit).of_eq Iff.rfl fun _ => ⟨by rw [hsize], rfl⟩

theorem walkable_iff : m.Walkable ↔ m.headerSize ≤ m.file.length ∧
    (∀ o ∈ m.commands, m.CommandFits o) ∧ OneTable m m.commands none :=
  ⟨fun h => ⟨h.header, h.command, h.oneTable⟩, fun h => ⟨h.1, h.2.1, h.2.2⟩⟩

theorem writes_walkCommands :
    Writes m ⟨4, none⟩ walkCommands m.Walkable (m.headerSize, m.u32 20)
      ⟨m.headerSize + m.commandsSize, tableAfterAll m m.commands none⟩ (document m) := by
  refine (writes_printRead32.bind fun _ => writes_printRead32.bind fun _ =>
    (writes_readNumber 4).bind fun _ => (writes_printNat _).bind fun _ =>
    (writes_readNumber 4).bind fun _ => (writes_printNat _).bind fun _ =>
    (writes_readNumber 4).bind fun _ => (writes_printNat _).bind fun _ =>
    writes_printRead32.bind fun _ =>
    writes_getIs64Bit.bind fun _ => writes_headerEnd.bind fun _ =>
    writes_tell.bind fun _ => (writes_print _).bind fun _ =>
    (writes_loadCommands _ 0 _).bind fun _ =>
    Writes.bind (q := fun _ => pure (m.headerSize, m.u32 20)) (writes_print _) fun _ =>
    writes_pure _).of_eq ?_ fun _ => ⟨?_, ?_⟩
  · have hheader : m.headerSize ≤ m.file.length ↔
        28 ≤ m.file.length ∧ (m.is64Bit = true → 32 ≤ m.file.length) := by
      unfold Image.headerSize
      cases m.is64Bit
      · simp
      · simp
        omega
    rw [walkable_iff, hheader]
    constructor
    · rintro ⟨-, -, -, -, -, -, -, -, hflags, -, hreserved, -, -, ⟨hfits, htable⟩, -, -⟩
      exact ⟨⟨hflags, hreserved⟩, hfits, htable⟩
    · rintro ⟨⟨hflags, hreserved⟩, hfits, htable⟩
      have hinside (k : ℕ) (hk : k ≤ 28) : k ≤ m.file.length := by omega
      exact ⟨hinside 8 (by norm_num), hinside 12 (by norm_num), hinside 16 (by norm_num), trivial,
        hinside 20 (by norm_num), trivial, hinside 24 (by norm_num), trivial, hflags, trivial,
        hreserved, trivial, trivial, ⟨hfits, htable⟩, trivial, trivial⟩
  · rfl
  · simp [document, headerLines, fieldLines, Image.u32, Image.commands]

theorem ofFile_eq (file : Bytes) : Reader.ofFile file = readerAt ⟨file, false, false⟩ ⟨0, none⟩ [] :=
  rfl

/-- The magic number is read before the format is known. -/
theorem writes_magic (file : Bytes) (isLSB is64Bit : Bool) :
    Writes ⟨file, isLSB, is64Bit⟩ ⟨0, none⟩ (read 4) (4 ≤ file.length) (file.take 4) ⟨4, none⟩ [] := by
  refine (writes_read 4).of_eq ?_ fun _ => ⟨rfl, rfl⟩
  simp [Image.Spans]

theorem setFormat_run (file : Bytes) (isLSB is64Bit : Bool) (s : Spot) (printed : List Bytes) :
    setFormat (file.take 4) (readerAt ⟨file, isLSB, is64Bit⟩ s printed) =
      match image? file with
      | some m => .ok () (readerAt m s printed)
      | none => .error .valueError (readerAt ⟨file, isLSB, is64Bit⟩ s printed) := by
  unfold image? setFormat
  split_ifs <;> rfl

theorem take_of_image? {file : Bytes} (h : image? file = some m) : 4 ≤ file.length ∧ m.file = file := by
  have hlength (magic : Bytes) (hmagic : magic.length = 4) (htake : file.take 4 = magic) :
      4 ≤ file.length := by
    have hl := congrArg List.length htake
    rw [List.length_take, hmagic] at hl
    omega
  unfold image? at h
  split_ifs at h with h₁ h₂ h₃ h₄
  all_goals cases h
  · exact ⟨hlength _ rfl h₁, rfl⟩
  · exact ⟨hlength _ rfl h₂, rfl⟩
  · exact ⟨hlength _ rfl h₃, rfl⟩
  · exact ⟨hlength _ rfl h₄, rfl⟩

/-- Where a run over the whole file ends. -/
def lastReader (m : Image) : Reader :=
  readerAt m ⟨m.headerSize + m.commandsSize, tableAfterAll m m.commands none⟩ (document m)

theorem exactly_dumpHeaderAndCommands (hm : m.Walkable) :
    dumpHeaderAndCommands (readerAt m ⟨4, none⟩ []) =
      if m.commandsSize = m.u32 20 then .ok () (lastReader m)
      else .error .valueError (lastReader m) := by
  have hsize : ((m.headerSize + m.commandsSize : ℕ) : ℤ) - (m.headerSize : ℕ) ≠ (m.u32 20 : ℕ) ↔
      m.commandsSize ≠ m.u32 20 := by omega
  rw [dumpHeaderAndCommands_eq, bind_of_ok ((writes_walkCommands []).returns hm)]
  rw [bind_of_ok ((writes_tell _).returns trivial), List.append_nil, List.nil_append]
  by_cases hend : m.commandsSize = m.u32 20
  · rw [if_neg (by rw [hsize]; simp [hend]), if_pos hend]
    rfl
  · rw [if_pos (by rw [hsize]; exact hend), if_neg hend]
    rfl

/-- A walkable image is dumped to its end, and the last check decides. -/
theorem dumpmacho_of_walkable {file : Bytes} (him : image? file = some m) (hm : m.Walkable) :
    dumpmacho (.ofFile file) =
      if m.commandsSize = m.u32 20 then .ok () (lastReader m)
      else .error .valueError (lastReader m) := by
  rw [← exactly_dumpHeaderAndCommands hm]
  have hformat := setFormat_run file false false ⟨4, none⟩ []
  rw [him] at hformat
  unfold dumpmacho
  rw [ofFile_eq, bind_of_ok ((writes_magic file _ _ []).returns (take_of_image? him).1)]
  exact bind_of_ok hformat

theorem dumpmacho_of_not_walkable {file : Bytes} (h : ∀ m, image? file = some m → ¬ m.Walkable) :
    ∃ e f, dumpmacho (.ofFile file) = .error e f := by
  unfold dumpmacho
  rw [ofFile_eq]
  by_cases hlength : 4 ≤ file.length
  · rw [bind_of_ok ((writes_magic file _ _ []).returns hlength)]
    have hformat := setFormat_run file false false ⟨4, none⟩ []
    cases him : image? file with
    | none =>
      rw [him] at hformat
      exact ⟨_, _, bind_of_error hformat⟩
    | some m =>
      rw [him] at hformat
      obtain ⟨e, f, hwalk⟩ := (writes_walkCommands []).raises (h m him)
      refine ⟨e, f, ?_⟩
      rw [List.append_nil, bind_of_ok hformat, dumpHeaderAndCommands_eq]
      exact bind_of_error hwalk
  · obtain ⟨e, f, hread⟩ := (writes_magic file false false []).raises hlength
    exact ⟨e, f, bind_of_error hread⟩

theorem machoDump_of_walkable {file : Bytes} (him : image? file = some m) (hm : m.Walkable) :
    machoDump file = unlines (document m) := by
  unfold machoDump
  rw [dumpmacho_of_walkable him hm]
  split_ifs <;> rfl

theorem prints_document {file : Bytes} (him : image? file = some m) (hm : m.WellFormed) :
    Prints file (document m) := by
  have hrun := dumpmacho_of_walkable him hm.toWalkable
  rw [if_pos hm.size] at hrun
  exact ⟨lastReader m, hrun, rfl⟩

theorem wellFormed_of_prints {file : Bytes} {lines : List Bytes} (h : Prints file lines) :
    ∃ m, image? file = some m ∧ m.WellFormed ∧ lines = document m := by
  obtain ⟨f, hok, rfl⟩ := h
  by_cases hwalk : ∃ m, image? file = some m ∧ m.Walkable
  · obtain ⟨m, him, hm⟩ := hwalk
    rw [dumpmacho_of_walkable him hm] at hok
    split_ifs at hok with hsize
    cases hok
    exact ⟨m, him, ⟨hm, hsize⟩, rfl⟩
  · obtain ⟨e, f', hrun⟩ := dumpmacho_of_not_walkable fun m him hm => hwalk ⟨m, him, hm⟩
    rw [hrun] at hok
    cases hok

theorem Dumps.wellFormed {file : Bytes} (h : Dumps file) (him : image? file = some m) :
    m.WellFormed := by
  obtain ⟨lines, hprints⟩ := h
  obtain ⟨m', him', hwell, -⟩ := wellFormed_of_prints hprints
  obtain rfl : m' = m := Option.some.inj (him'.symm.trans him)
  exact hwell

/-- The script dumps exactly the well-formed images, each as its document. -/
theorem prints_iff_wellFormed (file : Bytes) (lines : List Bytes) :
    Prints file lines ↔ ∃ m, image? file = some m ∧ m.WellFormed ∧ lines = document m := by
  constructor
  · exact wellFormed_of_prints
  · rintro ⟨m, him, hwell, rfl⟩
    exact prints_document him hwell

end MachoDump
