import DSYMCreator.Script.DumpLines
import DSYMCreator.Formats.MachOImage

/-!
# What a run of the dump prints

Every part of the script moves forward in the file by a number of bytes that its
code shows, or comes back to where it was, and prints lines with known numbers in
them. The rules compose these facts along a run that does not raise.
-/
namespace MachoDump

open Text Python Binary MachO DSYMCreator

/-- The image that the reader has open. -/
def Reader.image (f : Reader) : Image := ⟨f.file, f.isLSB, f.is64Bit⟩

/-- The reader after it moved to `pos` and printed `lines`. -/
def Reader.wander (f : Reader) (pos : ℕ) (lines : List Bytes) : Reader :=
  { f with pos := pos, printed := f.printed ++ lines }

@[simp] theorem Reader.wander_image (f : Reader) (pos : ℕ) (lines : List Bytes) :
    (f.wander pos lines).image = f.image := rfl

@[simp] theorem Reader.wander_pos (f : Reader) (pos : ℕ) (lines : List Bytes) :
    (f.wander pos lines).pos = pos := rfl

@[simp] theorem Reader.wander_stringTable (f : Reader) (pos : ℕ) (lines : List Bytes) :
    (f.wander pos lines).stringTable = f.stringTable := rfl

@[simp] theorem Reader.wander_wander (f : Reader) (pos pos' : ℕ) (lines lines' : List Bytes) :
    (f.wander pos lines).wander pos' lines' = f.wander pos' (lines ++ lines') := by
  simp [wander]

/-- The string table and the width, which only two commands of the script change. -/
def Reader.Knows (f : Reader) (table : Option Bytes) (is64 : Bool) : Prop :=
  f.stringTable = table ∧ f.is64Bit = is64

variable {α β : Type} {p : Dump α} {q : α → Dump β} {table : Option Bytes} {is64 : Bool} {n k : ℕ}
  {numbers numbers' : Image → ℕ → List ℕ}

theorem bind_ok {f f' : Reader} {b : β} (h : (p >>= q) f = .ok b f') :
    ∃ a f₁, p f = .ok a f₁ ∧ q a f₁ = .ok b f' := by
  change EStateM.bind p q f = _ at h
  unfold EStateM.bind at h
  cases hp : p f with
  | ok a f₁ =>
    rw [hp] at h
    exact ⟨a, f₁, rfl, h⟩
  | error e f₁ =>
    rw [hp] at h
    cases h

/-- With this string table and this width, the part moves `n` bytes on and prints these
numbers. -/
def Advances (table : Option Bytes) (is64 : Bool) (p : Dump α) (n : ℕ) (numbers : Image → ℕ → List ℕ) : Prop :=
  ∀ f a f', f.Knows table is64 → p f = .ok a f' →
    ∃ lines, Wrote (numbers f.image f.pos) lines ∧ f' = f.wander (f.pos + n) lines

/-- The part prints no numbers and comes to `pos` in the end. -/
def Returns (p : Dump α) (pos : ℕ) : Prop :=
  ∀ f a f', p f = .ok a f' → ∃ lines, Wrote [] lines ∧ f' = f.wander pos lines

/-- The part prints no numbers. -/
def Quiet (p : Dump α) : Prop :=
  ∀ f a f', p f = .ok a f' → ∃ pos lines, Wrote [] lines ∧ f' = f.wander pos lines

/-- The part prints these numbers; it can register a string table. -/
def Emits (p : Dump α) (numbers : Image → ℕ → List ℕ) : Prop :=
  ∀ f a f', p f = .ok a f' → ∃ pos table lines, Wrote (numbers f.image f.pos) lines ∧
    f' = { f.wander pos lines with stringTable := table }

/-! ## Composition -/

theorem Advances.bind (hp : Advances table is64 p n numbers)
    (hq : ∀ a, Advances table is64 (q a) k numbers') :
    Advances table is64 (p >>= q) (n + k) fun m off => numbers m off ++ numbers' m (off + n) := by
  intro f b f' hknows h
  obtain ⟨a, f₁, h₁, h₂⟩ := bind_ok h
  obtain ⟨lines, hw, rfl⟩ := hp f a f₁ hknows h₁
  obtain ⟨lines', hw', rfl⟩ := hq a (f.wander (f.pos + n) lines) b f' hknows h₂
  refine ⟨lines ++ lines', hw.append hw', ?_⟩
  rw [Reader.wander_wander, Reader.wander_pos, Nat.add_assoc]

theorem Advances.of_eq (hp : Advances table is64 p n numbers) (hn : n = k)
    (h : ∀ m off, numbers m off = numbers' m off) : Advances table is64 p k numbers' := by
  intro f a f' hknows hrun
  rw [← hn, ← h]
  exact hp f a f' hknows hrun

theorem Advances.bind_emits (hp : ∀ table is64, Advances table is64 p n numbers)
    (hq : ∀ a, Emits (q a) numbers') :
    Emits (p >>= q) fun m off => numbers m off ++ numbers' m (off + n) := by
  intro f b f' h
  obtain ⟨a, f₁, h₁, h₂⟩ := bind_ok h
  obtain ⟨lines, hw, rfl⟩ := hp f.stringTable f.is64Bit f a f₁ ⟨rfl, rfl⟩ h₁
  obtain ⟨pos, table', lines', hw', rfl⟩ := hq a _ b f' h₂
  refine ⟨pos, table', lines ++ lines', hw.append hw', ?_⟩
  rw [Reader.wander_wander]

theorem Advances.emits (hp : ∀ table is64, Advances table is64 p n numbers) : Emits p numbers := by
  intro f a f' h
  obtain ⟨lines, hw, rfl⟩ := hp f.stringTable f.is64Bit f a f' ⟨rfl, rfl⟩ h
  exact ⟨f.pos + n, f.stringTable, lines, hw, rfl⟩

theorem Quiet.bind (hp : Quiet p) (hq : ∀ a, Quiet (q a)) : Quiet (p >>= q) := by
  intro f b f' h
  obtain ⟨a, f₁, h₁, h₂⟩ := bind_ok h
  obtain ⟨pos, lines, hw, rfl⟩ := hp f a f₁ h₁
  obtain ⟨pos', lines', hw', rfl⟩ := hq a _ b f' h₂
  refine ⟨pos', lines ++ lines', hw.append hw', ?_⟩
  rw [Reader.wander_wander]

theorem Emits.bind_quiet (hp : Emits p numbers) (hq : ∀ a, Quiet (q a)) :
    Emits (p >>= q) numbers := by
  intro f b f' h
  obtain ⟨a, f₁, h₁, h₂⟩ := bind_ok h
  obtain ⟨pos, table, lines, hw, rfl⟩ := hp f a f₁ h₁
  obtain ⟨pos', lines', hw', rfl⟩ := hq a _ b f' h₂
  refine ⟨pos', table, lines ++ lines', ?_, by simp [Reader.wander]⟩
  simpa using hw.append hw'

theorem Quiet.emits (hp : Quiet p) : Emits p fun _ _ => [] := by
  intro f a f' h
  obtain ⟨pos, lines, hw, rfl⟩ := hp f a f' h
  exact ⟨pos, f.stringTable, lines, hw, rfl⟩

theorem Quiet.returns (hp : Quiet p) {pos : ℕ} (hq : ∀ a, Returns (q a) pos) :
    Returns (p >>= q) pos := by
  intro f b f' h
  obtain ⟨a, f₁, h₁, h₂⟩ := bind_ok h
  obtain ⟨pos', lines, hw, rfl⟩ := hp f a f₁ h₁
  obtain ⟨lines', hw', rfl⟩ := hq a _ b f' h₂
  refine ⟨lines ++ lines', hw.append hw', ?_⟩
  rw [Reader.wander_wander]

theorem Advances.quiet (hp : ∀ table is64, Advances table is64 p n fun _ _ => []) : Quiet p := by
  intro f a f' h
  obtain ⟨lines, hw, rfl⟩ := hp f.stringTable f.is64Bit f a f' ⟨rfl, rfl⟩ h
  exact ⟨f.pos + n, lines, hw, rfl⟩

theorem Advances.detour {q : ℕ → Dump α} (hq : ∀ pos, Returns (q pos) pos) :
    Advances table is64 (tell >>= q) 0 fun _ _ => [] := by
  intro f a f' _ h
  obtain ⟨pos, f₁, h₁, h₂⟩ := bind_ok h
  cases h₁
  exact hq f.pos f a f' h₂

/-! ## Statements -/

theorem advances_print {l : Bytes} {ns : List ℕ} (h : Wrote ns [l]) :
    Advances table is64 (print l) 0 fun _ _ => ns := by
  intro f a f' _ hrun
  cases hrun
  exact ⟨[l], h, rfl⟩

theorem advances_tell : Advances table is64 tell 0 fun _ _ => [] := by
  intro f a f' _ h
  cases h
  exact ⟨[], wrote_nil, by simp [Reader.wander]⟩

theorem quiet_tell : Quiet tell := Advances.quiet fun _ _ => advances_tell

theorem returns_seek (pos : ℕ) : Returns (seek pos) pos := by
  intro f a f' h
  cases h
  exact ⟨[], wrote_nil, by simp [Reader.wander]⟩

theorem quiet_seek (pos : ℕ) : Quiet (seek pos) := by
  intro f a f' h
  obtain ⟨lines, hw, rfl⟩ := returns_seek pos f a f' h
  exact ⟨pos, lines, hw, rfl⟩

theorem ite_ok {c : Prop} [Decidable c] {e : Error} {f f' : Reader} {a : α}
    (h : (if c then p else throw e) f = .ok a f') : c ∧ p f = .ok a f' := by
  by_cases hc : c
  · rw [if_pos hc] at h
    exact ⟨hc, h⟩
  · rw [if_neg hc] at h
    cases h

theorem read_ok {f f' : Reader} {len : ℤ} {data : Bytes} (h : read len f = .ok data f') :
    ∃ n : ℕ, len = n ∧ data = f.image.bytes f.pos n ∧ f' = f.wander (f.pos + n) [] := by
  obtain ⟨f₁, f₂, hget, h⟩ := bind_ok h
  cases hget
  obtain ⟨u, f₃, hset, h⟩ := bind_ok h
  cases hset
  obtain ⟨hlen, hreturn⟩ := ite_ok h
  cases hreturn
  have hpos : ¬ len < 0 := by omega
  obtain ⟨n, rfl⟩ := Int.eq_ofNat_of_zero_le (not_lt.mp hpos)
  have hdata : f.fileRead n = f.image.bytes f.pos n := by
    unfold Reader.fileRead
    rw [if_neg hpos]
    rfl
  rw [hdata] at hlen ⊢
  refine ⟨n, rfl, rfl, ?_⟩
  have hn : (f.image.bytes f.pos n).length = n := by exact_mod_cast hlen
  rw [hn]
  simp [Reader.wander]

theorem readNumber_ok {f f' : Reader} {v : ℕ} (h : readNumber n f = .ok v f') :
    v = f.image.number f.pos n ∧ f' = f.wander (f.pos + n) [] := by
  obtain ⟨data, f₁, h₁, h₂⟩ := bind_ok h
  obtain ⟨len, hlen, rfl, rfl⟩ := read_ok h₁
  cases h₂
  obtain rfl : n = len := by exact_mod_cast hlen
  exact ⟨rfl, rfl⟩

theorem quiet_read (len : ℤ) : Quiet (read len) := by
  intro f a f' h
  obtain ⟨n, -, -, rfl⟩ := read_ok h
  exact ⟨f.pos + n, [], wrote_nil, rfl⟩

/-- What follows some bytes in the file may depend on them. -/
theorem Advances.read_bind {q : Bytes → Dump α} {ns : Bytes → Image → ℕ → List ℕ}
    (hq : ∀ data, Advances table is64 (q data) k (ns data)) :
    Advances table is64 (read n >>= q) (n + k) fun m off => ns (m.bytes off n) m (off + n) := by
  intro f a f' hknows h
  obtain ⟨data, f₁, h₁, h₂⟩ := bind_ok h
  obtain ⟨len, hlen, rfl, rfl⟩ := read_ok h₁
  obtain rfl : n = len := by exact_mod_cast hlen
  obtain ⟨lines, hw, rfl⟩ := hq _ (f.wander (f.pos + n) []) a f' hknows h₂
  refine ⟨lines, hw, ?_⟩
  rw [Reader.wander_wander, Reader.wander_pos, Nat.add_assoc, List.nil_append]

theorem advances_readNumber : Advances table is64 (readNumber n) n fun _ _ => [] := by
  intro f a f' _ h
  obtain ⟨-, rfl⟩ := readNumber_ok h
  exact ⟨[], wrote_nil, rfl⟩

theorem Advances.readNumber_bind {q : ℕ → Dump α} {ns : ℕ → Image → ℕ → List ℕ}
    (hq : ∀ v, Advances table is64 (q v) k (ns v)) :
    Advances table is64 (readNumber n >>= q) (n + k) fun m off => ns (m.number off n) m (off + n) := by
  intro f a f' hknows h
  obtain ⟨v, f₁, h₁, h₂⟩ := bind_ok h
  obtain ⟨rfl, rfl⟩ := readNumber_ok h₁
  obtain ⟨lines, hw, rfl⟩ := hq _ (f.wander (f.pos + n) []) a f' hknows h₂
  refine ⟨lines, hw, ?_⟩
  rw [Reader.wander_wander, Reader.wander_pos, Nat.add_assoc, List.nil_append]

theorem Emits.readNumber_bind {q : ℕ → Dump α} {ns : ℕ → Image → ℕ → List ℕ}
    (hq : ∀ v, Emits (q v) (ns v)) :
    Emits (readNumber n >>= q) fun m off => ns (m.number off n) m (off + n) := by
  intro f a f' h
  obtain ⟨v, f₁, h₁, h₂⟩ := bind_ok h
  obtain ⟨rfl, rfl⟩ := readNumber_ok h₁
  obtain ⟨pos, table, lines, hw, rfl⟩ := hq _ _ a f' h₂
  refine ⟨pos, table, lines, hw, ?_⟩
  rw [Reader.wander_wander, List.nil_append]

/-! ## Lines -/

variable {t : String}

theorem advances_text (h : silentText t = true := by decide) :
    Advances table is64 (print (ascii t)) 0 fun _ _ => [] :=
  advances_print (wrote_text h)

theorem advances_printNat (v : ℕ) (h : silent t = true := by decide) :
    Advances table is64 (printNat t v) 0 fun _ _ => [] :=
  advances_print (wrote_silent h (plain_reprNat v))

theorem advances_printHex (v : ℕ) (h : silent t = true := by decide) :
    Advances table is64 (printHex t v) 0 fun _ _ => [] :=
  advances_print (wrote_silent h (plain_altHex v))

theorem advances_printStr (s : Bytes) (h : bare t = true := by decide) :
    Advances table is64 (printStr t s) 0 fun _ _ => strays s :=
  advances_print (wrote_string h s)

theorem advances_printRead16Bytes (h : bare t = true := by decide) :
    Advances table is64 (printRead16Bytes t) 16 fun m off => strays (m.bytes off 16) :=
  Advances.read_bind fun data => advances_printStr data h

theorem advances_printRead32 (h : silent t = true := by decide) :
    Advances table is64 (printRead32 t) 4 fun _ _ => [] :=
  Advances.readNumber_bind fun v => advances_printNat v h

theorem advances_printRead64 (h : silent t = true := by decide) :
    Advances table is64 (printRead64 t) 8 fun _ _ => [] :=
  Advances.readNumber_bind fun v => advances_printNat v h

/-- The two fields that the script looks for. -/
theorem advances_vmRead32 (h : selected t = true := by decide) :
    Advances table is64 (printRead32 t) 4 fun m off => [m.u32 off] :=
  Advances.readNumber_bind fun v => advances_print (wrote_number h v)

theorem advances_vmRead64 (h : selected t = true := by decide) :
    Advances table is64 (printRead64 t) 8 fun m off => [m.u64 off] :=
  Advances.readNumber_bind fun v => advances_print (wrote_number h v)

/-! ## Loops -/

theorem Quiet.forFrom {body : ℕ → Dump Unit} (h : ∀ i, Quiet (body i)) (i n : ℕ) :
    Quiet (forFrom body i n) := by
  induction n generalizing i with
  | zero =>
    intro f u f' hrun
    cases hrun
    exact ⟨f.pos, [], wrote_nil, by simp [Reader.wander]⟩
  | succ n ih => exact Quiet.bind (h i) fun _ => ih (i + 1)

theorem Advances.forFrom {body : ℕ → Dump Unit} (h : ∀ i, Advances table is64 (body i) k numbers)
    (i n : ℕ) :
    Advances table is64 (forFrom body i n) (n * k) fun m off =>
      (List.range n).flatMap fun j => numbers m (off + j * k) := by
  induction n generalizing i with
  | zero =>
    intro f u f' _ hrun
    cases hrun
    exact ⟨[], wrote_nil, by simp [Reader.wander]⟩
  | succ n ih =>
    apply Advances.of_eq (Advances.bind (h i) fun _ => ih (i + 1))
    · ring
    · intro m off
      rw [List.range_succ_eq_map, List.flatMap_cons, List.flatMap_map]
      simp only [Nat.zero_mul, Nat.add_zero, Nat.succ_mul, Nat.add_assoc, Nat.add_comm k]

/-! ## Sections and segments -/

theorem quiet_readNumber : Quiet (readNumber n) := Advances.quiet fun _ _ => advances_readNumber

theorem quiet_text (h : silentText t = true := by decide) : Quiet (print (ascii t)) :=
  Advances.quiet fun _ _ => advances_text h

theorem quiet_printNat (v : ℕ) (h : silent t = true := by decide) : Quiet (printNat t v) :=
  Advances.quiet fun _ _ => advances_printNat v h

theorem quiet_printHex (v : ℕ) (h : silent t = true := by decide) : Quiet (printHex t v) :=
  Advances.quiet fun _ _ => advances_printHex v h

theorem quiet_printRead32 (h : silent t = true := by decide) : Quiet (printRead32 t) :=
  Advances.quiet fun _ _ => advances_printRead32 h

theorem Advances.ite {wide : Bool} {p p' : Dump α} (hp : Advances table is64 p n numbers)
    (hp' : Advances table is64 p' k numbers') :
    Advances table is64 (if wide then p else p') (if wide then n else k) fun m off =>
      if wide then numbers m off else numbers' m off := by
  cases wide with
  | false => exact hp'
  | true => exact hp

theorem advances_return (a : α) : Advances table is64 (pure a) 0 fun _ _ => [] := by
  intro f b f' _ h
  cases h
  exact ⟨[], wrote_nil, by simp [Reader.wander]⟩

theorem quiet_relocation (i : ℕ) : Quiet (dumpRelocation i) :=
  (quiet_printNat i).bind fun _ =>
    quiet_readNumber.bind fun v => (quiet_printHex v).bind fun _ =>
    quiet_readNumber.bind fun v => quiet_printHex v

theorem advances_section (i : ℕ) (wide : Bool) :
    Advances table is64 (dumpSection i wide) (Image.sectionSize wide) fun m off =>
      (m.sectionNames off).flatMap strays := by
  refine Advances.of_eq
    ((advances_printNat i).bind fun _ =>
    (advances_printRead16Bytes).bind fun _ =>
    (advances_printRead16Bytes).bind fun _ =>
    (Advances.ite
      ((advances_printRead64).bind fun _ =>
      advances_readNumber.bind fun v => advances_printNat v)
      ((advances_printRead32).bind fun _ =>
      advances_readNumber.bind fun v => advances_printNat v)).bind fun _ =>
    advances_readNumber.bind fun v => (advances_printNat v).bind fun _ =>
    (advances_printRead32).bind fun _ =>
    advances_readNumber.bind fun v => (advances_printNat v).bind fun _ =>
    advances_readNumber.bind fun v => (advances_printNat v).bind fun _ =>
    advances_readNumber.bind fun v => (advances_printHex v).bind fun _ =>
    (advances_printRead32).bind fun _ =>
    (advances_printRead32).bind fun _ =>
    (Advances.ite advances_printRead32 (advances_return _)).bind fun _ =>
    (advances_text).bind fun _ =>
    Advances.detour fun pos =>
    (quiet_seek _).returns fun _ => (quiet_text).returns fun _ =>
    (Quiet.forFrom quiet_relocation 0 _).returns fun _ => (quiet_text).returns fun _ =>
    returns_seek pos) ?_ ?_
  · cases wide <;> rfl
  · intro m off
    cases wide <;> simp [Image.sectionNames]

/-- The body of a command stands 8 bytes behind the command. -/
def BodyEmits (p : Dump α) (numbers : Image → ℕ → List ℕ) : Prop :=
  ∃ ns, Emits p ns ∧ ∀ m off, ns m (off + 8) = numbers m off

/-- The numbers of a segment command, in the order in which they are printed. -/
def segmentNumbers (wide : Bool) (m : Image) (off : ℕ) : List ℕ :=
  strays (m.bytes (off + 8) 16) ++ [(m.segmentRange wide off).1, (m.segmentRange wide off).2] ++
    (m.segmentSectionNames wide off).flatMap strays

theorem bodyEmits_segment (wide : Bool) :
    BodyEmits (dumpSegmentLoadCommand wide) (segmentNumbers wide) := by
  refine ⟨_, Advances.bind_emits (fun _ _ => advances_printRead16Bytes) fun _ =>
    Advances.bind_emits (fun _ _ => Advances.ite
      ((advances_vmRead64).bind fun _ =>
      (advances_vmRead64).bind fun _ =>
      (advances_printRead64).bind fun _ =>
      advances_printRead64)
      ((advances_vmRead32).bind fun _ =>
      (advances_vmRead32).bind fun _ =>
      (advances_printRead32).bind fun _ =>
      advances_printRead32)) fun _ =>
    Advances.bind_emits (fun _ _ => advances_printRead32) fun _ =>
    Advances.bind_emits (fun _ _ => advances_printRead32) fun _ =>
    Emits.readNumber_bind fun numSections =>
    Advances.bind_emits (fun _ _ => advances_printNat numSections) fun _ =>
    Advances.bind_emits (fun _ _ => advances_printRead32) fun _ =>
    Advances.bind_emits (fun _ _ => advances_text) fun _ =>
    Advances.bind_emits (fun _ _ => Advances.forFrom (fun i => advances_section i wide) 0 numSections)
      fun _ => Advances.emits fun _ _ => advances_text, ?_⟩
  intro m off
  simp only [segmentNumbers, Image.segmentSectionNames, List.flatMap_assoc]
  cases wide with
  | false =>
    simp [Image.segmentRange, Image.segmentSize, Image.u32, Nat.add_assoc]
  | true =>
    simp [Image.segmentRange, Image.segmentSize, Image.u32, Image.u64, Nat.add_assoc]

/-! ## Symbols -/

theorem Advances.getString_bind {strings : Bytes} {index : ℕ} {q : Bytes → Dump α}
    {ns : Bytes → Image → ℕ → List ℕ} (hq : ∀ s, Advances (some strings) is64 (q s) k (ns s)) :
    Advances (some strings) is64 (getString index >>= q) k (ns (Image.nameAt strings index)) := by
  intro f a f' hknows h
  obtain ⟨s, f₁, h₁, h₂⟩ := bind_ok h
  obtain ⟨f₂, f₃, hget, h₁⟩ := bind_ok h₁
  cases hget
  rw [hknows.1] at h₁
  obtain ⟨-, hreturn⟩ := ite_ok h₁
  cases hreturn
  exact hq _ f a f' hknows h₂

theorem Advances.getIs64Bit_bind {q : Bool → Dump α} (hq : Advances table is64 (q is64) k numbers) :
    Advances table is64 (getIs64Bit >>= q) k numbers := by
  intro f a f' hknows h
  obtain ⟨wide, f₁, h₁, h₂⟩ := bind_ok h
  cases h₁
  rw [hknows.2] at h₂
  exact hq f a f' hknows h₂

theorem advances_nlist (strings : Bytes) (i : ℕ) :
    Advances (some strings) is64 (dumpNlist32 i) (if is64 then 16 else 12) fun m off =>
      strays (Image.nameAt strings (m.u32 off)) := by
  refine Advances.of_eq
    ((advances_printNat i).bind fun _ =>
    Advances.readNumber_bind fun nStrx =>
    (advances_printNat nStrx).bind fun _ =>
    advances_readNumber.bind fun v => (advances_printHex v).bind fun _ =>
    advances_readNumber.bind fun v => (advances_printNat v).bind fun _ =>
    advances_readNumber.bind fun v => (advances_printNat v).bind fun _ =>
    Advances.getIs64Bit_bind ((Advances.ite
      (advances_readNumber.bind fun v => advances_printNat v)
      (advances_readNumber.bind fun v => advances_printNat v)).bind fun _ =>
    Advances.getString_bind fun s => (advances_printStr s).bind fun _ =>
    advances_text)) ?_ ?_
  · cases is64 <;> rfl
  · intro m off
    simp [Image.u32]

theorem emits_stringsAndSymbols (symoff nsyms stroff strsize : ℕ) :
    Emits (dumpStringsAndSymbols symoff nsyms stroff strsize) fun m _ =>
      strays (m.bytes stroff strsize) ++ (List.range nsyms).flatMap fun i =>
        strays (Image.nameAt (m.bytes stroff strsize) (m.u32 (symoff + i * m.nlistSize))) := by
  intro f u f' h
  obtain ⟨prevPos, f₁, htell, h⟩ := bind_ok h
  cases htell
  obtain ⟨u₁, f₁, hseek, h⟩ := bind_ok h
  obtain ⟨l₁, hw₁, rfl⟩ := returns_seek stroff f u₁ f₁ hseek
  obtain ⟨data, f₂, hread, h⟩ := bind_ok h
  obtain ⟨len, hlen, rfl, rfl⟩ := read_ok hread
  obtain rfl : strsize = len := by exact_mod_cast hlen
  obtain ⟨u₃, f₃, hprint, h⟩ := bind_ok h
  obtain ⟨l₃, hw₃, rfl⟩ := advances_printStr _ rfl _ u₃ f₃ ⟨rfl, rfl⟩ hprint
  obtain ⟨u₄, f₄, hregister, h⟩ := bind_ok h
  obtain ⟨f₅, f₆, hget, hregister⟩ := bind_ok hregister
  cases hget
  obtain ⟨-, hset⟩ := ite_ok hregister
  cases hset
  obtain ⟨u₇, f₇, hseek, h⟩ := bind_ok h
  obtain ⟨l₇, hw₇, rfl⟩ := returns_seek symoff _ u₇ f₇ hseek
  obtain ⟨u₈, f₈, hprint, h⟩ := bind_ok h
  obtain ⟨l₈, hw₈, rfl⟩ := advances_text rfl _ u₈ f₈ ⟨rfl, rfl⟩ hprint
  obtain ⟨u₉, f₉, hloop, h⟩ := bind_ok h
  obtain ⟨l₉, hw₉, rfl⟩ := Advances.forFrom (advances_nlist _) 0 nsyms _ u₉ f₉ ⟨rfl, rfl⟩ hloop
  obtain ⟨u₁₀, f₁₀, hprint, h⟩ := bind_ok h
  obtain ⟨l₁₀, hw₁₀, rfl⟩ := advances_text rfl _ u₁₀ f₁₀ ⟨rfl, rfl⟩ hprint
  obtain ⟨l₁₁, hw₁₁, rfl⟩ := returns_seek _ _ u f' h
  have hw := hw₁.append (hw₃.append (hw₇.append (hw₈.append (hw₉.append (hw₁₀.append hw₁₁)))))
  refine ⟨f.pos, some (f.image.bytes stroff strsize),
    l₁ ++ (l₃ ++ (l₇ ++ (l₈ ++ (l₉ ++ (l₁₀ ++ l₁₁))))), ?_, ?_⟩
  · cases hwide : f.is64Bit with
    | false => simpa [Reader.wander, Reader.image, Image.nlistSize, hwide] using hw
    | true => simpa [Reader.wander, Reader.image, Image.nlistSize, hwide] using hw
  · simp [Reader.wander, Reader.image]

theorem bodyEmits_symtab :
    BodyEmits dumpSymtabCommand fun m off =>
      strays (m.stringTable off) ++ (m.symbolNames off).flatMap strays := by
  refine ⟨_, Emits.readNumber_bind fun symoff =>
    Advances.bind_emits (fun _ _ => advances_printNat symoff) fun _ =>
    Emits.readNumber_bind fun nsyms =>
    Advances.bind_emits (fun _ _ => advances_printNat nsyms) fun _ =>
    Emits.readNumber_bind fun stroff =>
    Advances.bind_emits (fun _ _ => advances_printNat stroff) fun _ =>
    Emits.readNumber_bind fun strsize =>
    Advances.bind_emits (fun _ _ => advances_printNat strsize) fun _ =>
    emits_stringsAndSymbols symoff nsyms stroff strsize, ?_⟩
  intro m off
  simp [Image.stringTable, Image.symbolNames, List.flatMap_map, Image.u32, Nat.add_assoc]

theorem quiet_indirectSymbol (i : ℕ) : Quiet (dumpIndirectSymbol i) :=
  (quiet_printNat i).bind fun _ =>
    quiet_readNumber.bind fun v => quiet_printHex v

theorem quiet_dysymtab : Quiet dumpDysymtabCommand := by
  unfold dumpDysymtabCommand
  iterate 12 refine (quiet_printRead32).bind fun _ => ?_
  refine quiet_readNumber.bind fun indirectsymoff =>
    (quiet_printNat indirectsymoff).bind fun _ =>
    quiet_readNumber.bind fun nindirectsyms =>
    (quiet_printNat nindirectsyms).bind fun _ => ?_
  iterate 4 refine (quiet_printRead32).bind fun _ => ?_
  exact quiet_tell.bind fun prevPos => (quiet_seek indirectsymoff).bind fun _ =>
    (quiet_text).bind fun _ =>
    (Quiet.forFrom quiet_indirectSymbol 0 nindirectsyms).bind fun _ =>
    (quiet_text).bind fun _ => quiet_seek prevPos

/-! ## Load commands -/

/-- The numbers of a load command; only segments and symbol tables have any. -/
def commandNumbers (m : Image) (off : ℕ) : List ℕ :=
  if m.u32 off = 1 then segmentNumbers false m off
  else if m.u32 off = 2 then strays (m.stringTable off) ++ (m.symbolNames off).flatMap strays
  else if m.u32 off = 25 then segmentNumbers true m off
  else []

theorem Quiet.bodyEmits (hp : Quiet p) : BodyEmits p fun _ _ => [] :=
  ⟨_, hp.emits, fun _ _ => rfl⟩

theorem quiet_uuid : Quiet (do print (fill "  ('uuid', %s)" (uuidText (← read 16)))) :=
  (quiet_read 16).bind fun data => Advances.quiet fun _ _ =>
    advances_print (wrote_silent rfl (plain_uuidText data))

theorem body_ok {cmd cmdSize : ℕ} {f f' : Reader} {u : Unit}
    (h : dumpCommandBody cmd cmdSize f = .ok u f') (off : ℕ) (hpos : f.pos = off + 8)
    (hcmd : f.image.u32 off = cmd) :
    ∃ pos table lines, Wrote (commandNumbers f.image off) lines ∧
      f' = { f.wander pos lines with stringTable := table } := by
  have hbranch {p : Dump Unit} {numbers : Image → ℕ → List ℕ} (hp : BodyEmits p numbers)
      (hrun : p f = .ok u f') : ∃ pos table lines, Wrote (numbers f.image off) lines ∧
        f' = { f.wander pos lines with stringTable := table } := by
    obtain ⟨ns, hns, heq⟩ := hp
    have hend := hns f u f' hrun
    rwa [hpos, heq] at hend
  unfold dumpCommandBody at h
  unfold commandNumbers
  rw [hcmd]
  by_cases h₁ : cmd = 1
  · rw [if_pos h₁] at h ⊢
    exact hbranch (bodyEmits_segment false) h
  rw [if_neg h₁] at h ⊢
  by_cases h₂ : cmd = 2
  · rw [if_pos h₂] at h ⊢
    exact hbranch bodyEmits_symtab h
  rw [if_neg h₂] at h ⊢
  by_cases h₁₁ : cmd = 11
  · rw [if_pos h₁₁] at h
    rw [if_neg (by omega)]
    exact hbranch quiet_dysymtab.bodyEmits h
  rw [if_neg h₁₁] at h
  by_cases h₂₅ : cmd = 25
  · rw [if_pos h₂₅] at h ⊢
    exact hbranch (bodyEmits_segment true) h
  rw [if_neg h₂₅] at h ⊢
  by_cases h₂₇ : cmd = 27
  · rw [if_pos h₂₇] at h
    exact hbranch quiet_uuid.bodyEmits h
  · rw [if_neg h₂₇] at h
    exact hbranch ((quiet_read _).bind fun _ => Advances.quiet fun _ _ =>
      advances_return _).bodyEmits h

theorem check_ok {c : Prop} [Decidable c] {e : Error} {f f' : Reader} {u : Unit}
    (h : (if c then throw e else pure () : Dump Unit) f = .ok u f') : ¬ c ∧ f' = f := by
  by_cases hc : c
  · rw [if_pos hc] at h
    cases h
  · rw [if_neg hc] at h
    cases h
    exact ⟨hc, rfl⟩

theorem loadCommand_ok {i : ℕ} {f f' : Reader} {u : Unit} (h : dumpLoadCommand i f = .ok u f') :
    ∃ table lines, Wrote (commandNumbers f.image f.pos) lines ∧
      f' = { f.wander (f.pos + f.image.u32 (f.pos + 4)) lines with stringTable := table } := by
  obtain ⟨start, f₁, htell, h⟩ := bind_ok h
  cases htell
  obtain ⟨u₁, f₁, hprint, h⟩ := bind_ok h
  obtain ⟨l₁, hw₁, rfl⟩ := advances_printNat i rfl f u₁ f₁ ⟨rfl, rfl⟩ hprint
  obtain ⟨cmd, f₂, hread, h⟩ := bind_ok h
  obtain ⟨rfl, rfl⟩ := readNumber_ok hread
  obtain ⟨u₃, f₃, hprint, h⟩ := bind_ok h
  obtain ⟨l₃, hw₃, rfl⟩ := advances_printNat _ rfl _ u₃ f₃ ⟨rfl, rfl⟩ hprint
  obtain ⟨cmdSize, f₄, hread, h⟩ := bind_ok h
  obtain ⟨rfl, rfl⟩ := readNumber_ok hread
  obtain ⟨u₅, f₅, hprint, h⟩ := bind_ok h
  obtain ⟨l₅, hw₅, rfl⟩ := advances_printNat _ rfl _ u₅ f₅ ⟨rfl, rfl⟩ hprint
  obtain ⟨u₆, f₆, hbody, h⟩ := bind_ok h
  obtain ⟨pos, table, l₆, hw₆, rfl⟩ := body_ok hbody f.pos (by simp [Nat.add_assoc]) rfl
  obtain ⟨u₇, f₇, hprint, h⟩ := bind_ok h
  obtain ⟨l₇, hw₇, rfl⟩ := advances_text rfl _ u₇ f₇ ⟨rfl, rfl⟩ hprint
  obtain ⟨stop, f₈, htell, h⟩ := bind_ok h
  cases htell
  obtain ⟨hstop, rfl⟩ := check_ok h
  have hsize : pos = f.pos + f.image.u32 (f.pos + 4) := by
    have hdiff : (pos : ℤ) - f.pos = f.image.u32 (f.pos + 4) := by
      simpa [Reader.wander, Reader.image, Image.u32] using hstop
    omega
  have hw := hw₁.append (hw₃.append (hw₅.append (hw₆.append hw₇)))
  refine ⟨table, l₁ ++ (l₃ ++ (l₅ ++ (l₆ ++ l₇))), by simpa using hw, ?_⟩
  rw [← hsize]
  simp [Reader.wander]

theorem loadCommands_ok {i n : ℕ} {f f' : Reader} {u : Unit}
    (h : forFrom dumpLoadCommand i n f = .ok u f') :
    ∃ pos table lines,
      Wrote ((f.image.commandsFrom f.pos n).flatMap (commandNumbers f.image)) lines ∧
      f' = { f.wander pos lines with stringTable := table } := by
  induction n generalizing i f with
  | zero =>
    cases h
    exact ⟨f'.pos, f'.stringTable, [], wrote_nil, by simp [Reader.wander]⟩
  | succ n ih =>
    obtain ⟨u₁, f₁, hcommand, h⟩ := bind_ok h
    obtain ⟨table, lines, hw, rfl⟩ := loadCommand_ok hcommand
    obtain ⟨pos, table', lines', hw', rfl⟩ := ih h
    refine ⟨pos, table', lines ++ lines', ?_, by simp [Reader.wander]⟩
    exact hw.append hw'

theorem emits_loadCommands (n : ℕ) :
    Emits (forRange n dumpLoadCommand) fun m off =>
      (m.commandsFrom off n).flatMap (commandNumbers m) := fun _ _ _ h => loadCommands_ok h

/-! ## The whole dump -/

/-- The magic number decides the format, and nothing else of the reader changes. -/
theorem setFormat_ok {f f' : Reader} {magic : Bytes} {u : Unit}
    (h : setFormat magic f = .ok u f') (hmagic : f.file.take 4 = magic) :
    image? f.file = some f'.image ∧ f'.pos = f.pos ∧ f'.printed = f.printed := by
  obtain ⟨f₁, f₂, hget, h⟩ := bind_ok h
  cases hget
  unfold image?
  rw [hmagic]
  by_cases h₁ : magic = [0xfe, 0xed, 0xfa, 0xce]
  · rw [if_pos h₁] at h ⊢
    cases h
    exact ⟨rfl, rfl, rfl⟩
  rw [if_neg h₁] at h ⊢
  by_cases h₂ : magic = [0xce, 0xfa, 0xed, 0xfe]
  · rw [if_pos h₂] at h ⊢
    cases h
    exact ⟨rfl, rfl, rfl⟩
  rw [if_neg h₂] at h ⊢
  by_cases h₃ : magic = [0xfe, 0xed, 0xfa, 0xcf]
  · rw [if_pos h₃] at h ⊢
    cases h
    exact ⟨rfl, rfl, rfl⟩
  rw [if_neg h₃] at h ⊢
  obtain ⟨h₄, h⟩ := ite_ok h
  rw [if_pos h₄]
  cases h
  exact ⟨rfl, rfl, rfl⟩

theorem Emits.reserved {hp : Dump Unit} {q : Dump α}
    (hp' : ∀ table is64, Advances table is64 hp n fun _ _ => []) (hq : Emits q numbers) :
    Emits (getIs64Bit >>= fun is64Bit => (if is64Bit then hp else pure ()) >>= fun _ => q)
      fun m off => numbers m (off + if m.is64Bit then n else 0) := by
  intro f a f' h
  obtain ⟨wide, f₁, hget, h⟩ := bind_ok h
  cases hget
  obtain ⟨u, f₂, hfield, h⟩ := bind_ok h
  obtain ⟨l₁, hw₁, rfl⟩ := (hp' f.stringTable f.is64Bit).ite (advances_return ()) f u f₂
    ⟨rfl, rfl⟩ hfield
  obtain ⟨pos, table, l₂, hw₂, rfl⟩ := hq _ a f' h
  have hw := hw₁.append hw₂
  refine ⟨pos, table, l₁ ++ l₂, ?_, by simp [Reader.wander]⟩
  change Wrote (numbers f.image (f.pos + if f.is64Bit then n else 0)) (l₁ ++ l₂)
  simpa using hw

theorem quiet_check {c : Prop} [Decidable c] {e : Error} :
    Quiet (if c then throw e else pure () : Dump Unit) := by
  intro f u f' h
  obtain ⟨-, rfl⟩ := check_ok h
  exact ⟨f'.pos, [], wrote_nil, by simp [Reader.wander]⟩

theorem emits_headerAndCommands : ∃ ns, Emits dumpHeaderAndCommands ns ∧
    ∀ m, ns m 4 = m.commands.flatMap (commandNumbers m) := by
  refine ⟨_, Advances.bind_emits (fun _ _ => advances_printRead32) fun _ =>
    Advances.bind_emits (fun _ _ => advances_printRead32) fun _ =>
    Advances.bind_emits (fun _ _ => advances_readNumber) fun filetype =>
    Advances.bind_emits (fun _ _ => advances_printNat filetype) fun _ =>
    Emits.readNumber_bind fun numLoadCommands =>
    Advances.bind_emits (fun _ _ => advances_printNat filetype) fun _ =>
    Advances.bind_emits (fun _ _ => advances_readNumber) fun loadCommandsSize =>
    Advances.bind_emits (fun _ _ => advances_printNat loadCommandsSize) fun _ =>
    Advances.bind_emits (fun _ _ => advances_printRead32) fun _ =>
    Emits.reserved (fun _ _ => advances_printRead32) <|
    Advances.bind_emits (fun _ _ => advances_tell) fun start =>
    Advances.bind_emits (fun _ _ => advances_text) fun _ =>
    (emits_loadCommands numLoadCommands).bind_quiet fun _ =>
    (quiet_text).bind fun _ => quiet_tell.bind fun stop => quiet_check, ?_⟩
  intro m
  cases hwide : m.is64Bit with
  | false => simp [Image.commands, Image.headerSize, Image.u32, hwide]
  | true => simp [Image.commands, Image.headerSize, Image.u32, hwide]

/-- The dump of an image shows the numbers of its load commands and no others. -/
theorem prints_ok {file : Bytes} {lines : List Bytes} (h : Prints file lines) :
    ∃ m, image? file = some m ∧ Wrote (m.commands.flatMap (commandNumbers m)) lines := by
  obtain ⟨f', hrun, rfl⟩ := h
  obtain ⟨magic, f₁, hread, h⟩ := bind_ok hrun
  obtain ⟨len, hlen, rfl, rfl⟩ := read_ok hread
  obtain rfl : 4 = len := by exact_mod_cast hlen
  obtain ⟨u₂, f₂, hformat, h⟩ := bind_ok h
  obtain ⟨himage, hpos, hprinted⟩ := setFormat_ok hformat rfl
  obtain ⟨ns, hns, hcommands⟩ := emits_headerAndCommands
  obtain ⟨pos, table, lines, hw, rfl⟩ := hns f₂ () f' h
  have hstart : f₂.pos = 4 := hpos
  have hnone : f₂.printed = [] := hprinted
  rw [hstart, hcommands] at hw
  refine ⟨f₂.image, himage, ?_⟩
  simpa [Reader.wander, hnone] using hw

end MachoDump
