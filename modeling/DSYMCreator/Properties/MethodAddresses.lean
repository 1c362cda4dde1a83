import DSYMCreator.Properties.DebugInfoRoundTrip
import DSYMCreator.Properties.Symbolication
import DSYMCreator.Properties.SymbolRoundTrip
import DSYMCreator.Tool.ObjcInput

/-!
# Start addresses and modes of the methods

The script subtracts one from every `IMP`, and the tool marks every 32-bit symbol as
Thumb code. Both are right for Thumb methods only: an ARM method and an arm64 method
start one byte early, and an ARM method is marked as Thumb code.
-/
namespace DSYMCreator

open Binary Binary.Parser Python Successive Text

variable {T : AddrType}

/-- The first instruction of a method: on armv7 bit 0 of the `IMP` is the Thumb bit. -/
def Arch.firstInstruction : Arch → ℕ → ℕ
  | .armv7, imp => imp - imp % 2
  | .arm64, imp => imp

/-- The method is Thumb code. -/
def Arch.IsThumb (arch : Arch) (imp : ℕ) : Prop := arch = .armv7 ∧ imp % 2 = 1

namespace DwarfDebugInfoSection

/-- `low_pc` in the entry of a symbol: code, two addresses and the place of the name. -/
def functionLowPc (T : AddrType) : Parser ℕ := do
  let _code ← uint 1
  let lowPc ← uint T.size
  let _highPc ← uint T.size
  let _name ← uint 4
  return lowPc

/-- The entries stand behind the unit's header and the entry of the compile unit. -/
def lowPcs (T : AddrType) (n : ℕ) : Parser (List ℕ) := do
  let _header ← Dwarf.unitHeader
  let _compileUnit ← bytes 3
  times (functionLowPc T) n

theorem reads_functionLowPc (strx : StdString → BitVec 32) (s : Symbol T) :
    Reads (functionLowPc T) (functionBytes strx s) s.base.toNat := by
  have hcode : Reads (uint 1) (u8Bytes 2) 2 := reads_uint (by decide)
  have hname : Reads (uint 4) (u32Bytes (strx s.name)) (strx s.name).toNat := reads_bitVec (n := 4) _
  have hreads : Reads (functionLowPc T) (u8Bytes 2 ++ (addrBytes T s.base ++
      (addrBytes T s.endAddr ++ (u32Bytes (strx s.name) ++ [])))) s.base.toNat :=
    hcode.bind <| (reads_bitVec s.base).bind <| (reads_bitVec s.endAddr).bind <|
      hname.bind (reads_pure _)
  simpa [functionBytes] using hreads

theorem value_lowPcs (strx : StdString → BitVec 32) (symbols : List (Symbol T)) :
    (lowPcs T symbols.length).value? (infoBytes strx symbols) =
      some (symbols.map fun s => s.base.toNat) := by
  have hunit : Reads (bytes 3) ([1] ++ (u16Bytes (BitVec.ofNat 16 DW_LANG_ObjC) ++ []))
      ([1] ++ (u16Bytes (BitVec.ofNat 16 DW_LANG_ObjC) ++ [])) := .bytes (by simp)
  have hfunctions : Reads (times (functionLowPc T) symbols.length)
      (symbols.flatMap (functionBytes strx)) (symbols.map fun s => s.base.toNat) :=
    reads_times fun s _ => reads_functionLowPc strx s
  have hreads : Reads (lowPcs T symbols.length) (headerBytes strx symbols ++
      (([1] ++ (u16Bytes (BitVec.ofNat 16 DW_LANG_ObjC) ++ [])) ++
        symbols.flatMap (functionBytes strx))) (symbols.map fun s => s.base.toNat) :=
    (reads_header strx symbols).bind (hunit.bind hfunctions)
  have hbytes : infoBytes strx symbols = headerBytes strx symbols ++
      (([1] ++ (u16Bytes (BitVec.ofNat 16 DW_LANG_ObjC) ++ [])) ++
        symbols.flatMap (functionBytes strx)) ++ [0] := by
    rw [infoBytes_eq, entryBytes]
    simp only [List.append_assoc]
  rw [hbytes]
  exact hreads.value? [0]

end DwarfDebugInfoSection

namespace Method

/-- The record and the start address of a method: both addresses are its first instruction,
and the record is marked as Thumb code exactly when it is. -/
structure Exact (arch : Arch) (m : Method) (entry : MachO.Nlist × ℕ) : Prop where
  value : entry.1.nValue = arch.firstInstruction m.address
  lowPc : entry.2 = arch.firstInstruction m.address
  mode : entry.1.nDesc &&& N_ARM_THUMB_DEF.toNat ≠ 0 ↔ arch.IsThumb m.address

/-- What a reader of the two tables finds for the methods, in the order of the script. -/
def MethodsExact (arch : Arch) (ms : List Method) (b : Macho.Buffers) : Prop :=
  ∃ records starts,
    (times (MachO.nlist arch.addrType.is64) ms.length).value? b.symbols = some records ∧
      (DwarfDebugInfoSection.lowPcs arch.addrType ms.length).value? b.debugInfo = some starts ∧
      List.Forall₂ (Exact arch) (sorted ms) (records.zip starts)

/-- Record and start address of a symbol. -/
def entryOf (strx : StdString → BitVec 32) (s : Symbol T) : MachO.Nlist × ℕ :=
  ((SymbolTable.record strx s).view, s.base.toNat)

theorem nDesc_entryOf (strx : StdString → BitVec 32) (s : Symbol T) :
    (entryOf strx s).1.nDesc = if T.is64 then 0 else N_ARM_THUMB_DEF.toNat := by
  cases T <;> rfl

theorem toNat_start {a : ℕ} (hlt : a < 2 ^ (8 * T.size)) (hpos : a ≠ 0) :
    (BitVec.ofInt (8 * T.size) ((a : ℤ) - 1)).toNat = a - 1 := by
  rw [BitVec.toNat_ofInt]
  cases T <;> simp only [AddrType.size] at hlt ⊢ <;> omega

/-- Only a Thumb method survives the subtraction and the mark. -/
theorem exact_iff {arch : Arch} {m : Method} (strx : StdString → BitVec 32)
    {s : Symbol arch.addrType} (hwidth : m.address < 2 ^ (8 * arch.addrType.size))
    (hbase : s.base = BitVec.ofInt _ ((m.address : ℤ) - 1)) :
    Exact arch m (entryOf strx s) ↔ arch.IsThumb m.address := by
  have hvalue : (entryOf strx s).1.nValue = (entryOf strx s).2 := rfl
  constructor
  · intro h
    cases arch with
    | armv7 =>
      -- every record of the 32-bit table is marked
      have hmarked : (entryOf strx s).1.nDesc &&& N_ARM_THUMB_DEF.toNat ≠ 0 := by
        rw [nDesc_entryOf]
        decide
      exact h.mode.mp hmarked
    | arm64 =>
      have hlow : s.base.toNat = m.address := h.lowPc
      rw [hbase] at hlow
      by_cases hzero : m.address = 0
      · rw [hzero] at hlow
        exact absurd hlow (by decide)
      · rw [toNat_start hwidth hzero] at hlow
        omega
  · intro hthumb
    have hpos : m.address ≠ 0 := by
      have hodd := hthumb.2
      omega
    have hlow : (entryOf strx s).2 = arch.firstInstruction m.address := by
      change s.base.toNat = _
      rw [hbase, toNat_start hwidth hpos, hthumb.1, Arch.firstInstruction, hthumb.2]
    refine ⟨hvalue.trans hlow, hlow, ?_⟩
    refine iff_of_true ?_ hthumb
    rw [nDesc_entryOf, hthumb.1]
    decide

theorem methodsExact_iff_isThumb {stack : StackContents} {arch : Arch} {ms : List Method}
    {b : Macho.Buffers} (hwidth : ∀ m ∈ ms, m.address < 2 ^ (8 * arch.addrType.size))
    (h : prepareObjcBuffers stack arch (ms.map line) = some b) :
    MethodsExact arch ms b ↔ ∀ m ∈ ms, arch.IsThumb m.address := by
  obtain ⟨-, strx, htable, hinfo⟩ := prepareObjcBuffers_eq_some h
  set symbols := (written ms).map (RawSymbol.readBack arch.addrType) with hsymbols
  have hperm := sorted_perm ms
  have hlength : symbols.length = ms.length := by
    have hmap : (written ms).map RawSymbol.name = (sorted ms).map Method.name :=
      map_written (fun _ _ => rfl) (fun _ => rfl) ms
    have hlengths := congrArg List.length hmap
    rw [List.length_map, List.length_map, hperm.length_eq] at hlengths
    rw [hsymbols, List.length_map, hlengths]
  have hrecords := SymbolTable.value_records strx symbols
  have hstarts := DwarfDebugInfoSection.value_lowPcs strx symbols
  rw [← htable, hlength] at hrecords
  rw [← hinfo, hlength] at hstarts
  have hzip : (symbols.map fun s => (SymbolTable.record strx s).view).zip
      (symbols.map fun s => s.base.toNat) = symbols.map (entryOf strx) := List.zip_map' ..
  have hentries : MethodsExact arch ms b ↔
      List.Forall₂ (Exact arch) (sorted ms) (symbols.map (entryOf strx)) := by
    unfold MethodsExact
    rw [hrecords, hstarts, ← hzip]
    constructor
    · rintro ⟨records, starts, hr, hs, hexact⟩
      rwa [Option.some_inj.mp hr, Option.some_inj.mp hs]
    · intro hexact
      exact ⟨_, _, rfl, rfl, hexact⟩
  have hthumb : List.Forall₂ (Exact arch) (sorted ms) (symbols.map (entryOf strx)) ↔
      ∀ m ∈ sorted ms, arch.IsThumb m.address := by
    rw [hsymbols, List.forall₂_map_right_iff, List.forall₂_map_right_iff]
    apply forall₂_chain
    · intro m hm n
      exact exact_iff strx (hwidth m (hperm.mem_iff.mp hm)) rfl
    · intro m hm
      exact exact_iff strx (hwidth m (hperm.mem_iff.mp hm)) rfl
  rw [hentries, hthumb]
  exact forall_congr' fun m => imp_congr_left hperm.mem_iff

/-- The methods start exactly on their first instruction and have the right mode if and only
if all of them are Thumb methods of armv7. -/
theorem methodsExact_iff {stack : StackContents} {arch : Arch} {ms : List Method}
    {b : Macho.Buffers} (hwidth : ∀ m ∈ ms, m.address < 2 ^ (8 * arch.addrType.size))
    (h : prepareObjcBuffers stack arch (ms.map line) = some b) :
    MethodsExact arch ms b ↔ arch = .armv7 ∧ ∀ m ∈ ms, m.address % 2 = 1 := by
  rw [methodsExact_iff_isThumb hwidth h]
  constructor
  · intro hall
    obtain ⟨m, hm⟩ := List.exists_mem_of_ne_nil ms (prepareObjcBuffers_eq_some h).1
    exact ⟨(hall m hm).1, fun n hn => (hall n hn).2⟩
  · rintro ⟨harch, hodd⟩ m hm
    exact ⟨harch, hodd m hm⟩

def thumbMethod : Method := sampleMethod [5, 0, 0, 1] 'd' (by decide) (by decide) (by decide)
def armMethod : Method := sampleMethod [5, 0, 0, 4] 'd' (by decide) (by decide) (by decide)

theorem prepareObjcBuffers_single (stack : StackContents) (arch : Arch) {m : Method}
    (htab : tab ∉ m.name) (hascii : m.name.all (· < 128) = true)
    (hlt : m.address + 0x1000 ≤ 2 ^ 64) (hname : m.name.length < 2 ^ 32 - 1) :
    ∃ b, prepareObjcBuffers stack arch ([m].map line) = some b := by
  have hutf : IsUtf8 m.name :=
    isUtf8_of_ascii fun c hc => of_decide_eq_true (List.all_eq_true.mp hascii c hc)
  apply prepareObjcBuffers_returns stack arch (List.cons_ne_nil m [])
  · intro n hn
    rw [List.mem_singleton.mp hn]
    exact htab
  · intro n hn
    rw [List.mem_singleton.mp hn]
    exact hutf
  · intro n hn
    rw [List.mem_singleton.mp hn]
    exact hlt
  · have hcut : (cStr m.name).length ≤ m.name.length := (List.takeWhile_prefix _).length_le
    have hsorted : (sorted [m]).map (fun n => cStr n.name) = [cStr m.name] := rfl
    rw [hsorted, StringTable.concatNames_cons, StringTable.concatNames_nil, List.length_append,
      List.length_singleton]
    omega

theorem methodsExact_iff_thumb : ∃ b,
    prepareObjcBuffers Macho.clearStack .armv7 ([thumbMethod].map line) = some b ∧
      (MethodsExact .armv7 [thumbMethod] b ↔
        Arch.armv7 = .armv7 ∧ ∀ m ∈ [thumbMethod], m.address % 2 = 1) := by
  obtain ⟨b, hb⟩ := prepareObjcBuffers_single Macho.clearStack .armv7 (m := thumbMethod)
    (by decide) (by decide) (by decide) (by decide)
  exact ⟨b, hb, methodsExact_iff (by decide) hb⟩

/-- An address that is a multiple of 4 is wrong on both architectures. -/
theorem arm_method_not_exact :
    (∃ b, prepareObjcBuffers Macho.clearStack .armv7 ([armMethod].map line) = some b ∧
      ¬ MethodsExact .armv7 [armMethod] b) ∧
    ∃ b, prepareObjcBuffers Macho.clearStack .arm64 ([armMethod].map line) = some b ∧
      ¬ MethodsExact .arm64 [armMethod] b := by
  have hnot (arch : Arch) : ¬ ∀ m ∈ [armMethod], arch.IsThumb m.address := by
    intro hall
    have hodd : armMethod.address % 2 = 1 := (hall armMethod List.mem_cons_self).2
    exact absurd hodd (by decide)
  obtain ⟨b, hb⟩ := prepareObjcBuffers_single Macho.clearStack .armv7 (m := armMethod)
    (by decide) (by decide) (by decide) (by decide)
  obtain ⟨b', hb'⟩ := prepareObjcBuffers_single Macho.clearStack .arm64 (m := armMethod)
    (by decide) (by decide) (by decide) (by decide)
  refine ⟨⟨b, hb, ?_⟩, b', hb', ?_⟩
  · rw [methodsExact_iff_isThumb (by decide) hb]
    exact hnot .armv7
  · rw [methodsExact_iff_isThumb (by decide) hb']
    exact hnot .arm64

end Method
end DSYMCreator
