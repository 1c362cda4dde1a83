import DSYMCreator.Tool.Objects
import DSYMCreator.Tool.SymbolTable
import DSYMCreator.Tool.DwarfSections

/-!
# The bytes of the tables

Each writer returns exactly when the map has every name it looks up, and then
returns a concatenation: one record a symbol, whatever the stack held.
-/
namespace DSYMCreator

open Binary Binary.Parser

/-- `it->second` for a name the map has. -/
def offsetIn (m : NameToOffset) (name : StdString) : BitVec 32 := (m.lookup name).getD 0

namespace SymbolTable

variable {T : AddrType}

/-- The record of a symbol whose name stands at `strx`; every field of it is assigned. -/
def record (strx : StdString → BitVec 32) (s : Symbol T) : Nlist T :=
  entry (fun _ => 0) s (strx s.name)

def recordBytes (strx : StdString → BitVec 32) (s : Symbol T) : ByteBuffer :=
  flatBytes (record strx s).members

theorem dumpFrom_eq_ok_iff (stack : StackContents) (m : NameToOffset) (i : ℕ)
    (symbols : List (Symbol T)) (result r : ByteBuffer) :
    dumpFrom stack m i symbols result = .ok r ↔
      (∀ s ∈ symbols, m.lookup s.name ≠ none) ∧
        r = result ++ symbols.flatMap (recordBytes (offsetIn m)) := by
  induction symbols generalizing i result with
  | nil => simp [dumpFrom, eq_comm]
  | cons s symbols ih =>
    have hentry : objectBytes (stack (.nlist i))
        (entry (stack (.nlist i)) s ((m.lookup s.name).getD 0)).members =
          recordBytes (offsetIn m) s :=
      objectBytes_eq _ (Nlist.packed _)
    simp only [dumpFrom, bind_eq_ok, cAssert_eq_ok, hentry, appendToBuffer, ih]
    constructor
    · rintro ⟨-, hs, hrest, rfl⟩
      refine ⟨?_, by simp⟩
      intro t ht
      rcases List.mem_cons.mp ht with rfl | ht
      · exact hs
      · exact hrest t ht
    · rintro ⟨hall, rfl⟩
      exact ⟨⟨⟩, hall s List.mem_cons_self, fun t ht => hall t (List.mem_cons_of_mem s ht),
        by simp⟩

theorem dump_eq_ok_iff (stack : StackContents) (m : NameToOffset) (symbols : List (Symbol T))
    (r : ByteBuffer) :
    dump stack symbols m = .ok r ↔
      (∀ s ∈ symbols, m.lookup s.name ≠ none) ∧
        r = symbols.flatMap (recordBytes (offsetIn m)) := by
  simp [dump, dumpFrom_eq_ok_iff]

@[simp] theorem length_recordBytes (strx : StdString → BitVec 32) (s : Symbol T) :
    (recordBytes strx s).length = 8 + T.size := Nlist.length_flatBytes _

theorem length_records (strx : StdString → BitVec 32) (symbols : List (Symbol T)) :
    (symbols.flatMap (recordBytes strx)).length = symbols.length * (8 + T.size) := by
  simp [List.length_flatMap]

theorem value_records (strx : StdString → BitVec 32) (symbols : List (Symbol T)) :
    (times (MachO.nlist T.is64) symbols.length).value? (symbols.flatMap (recordBytes strx)) =
      some (symbols.map fun s => (record strx s).view) := by
  have htable : Reads (times (MachO.nlist T.is64) symbols.length)
      (symbols.flatMap (recordBytes strx)) (symbols.map fun s => (record strx s).view) :=
    reads_times fun s _ => Nlist.reads _
  simpa using htable.value? []

end SymbolTable

namespace DwarfDebugInfoSection

variable {T : AddrType}

/-- The entry of one symbol. -/
def functionBytes (strx : StdString → BitVec 32) (s : Symbol T) : ByteBuffer :=
  u8Bytes 2 ++ addrBytes T s.base ++ addrBytes T s.endAddr ++ u32Bytes (strx s.name)

/-- The unit behind its length field: the rest of the header, the compile unit entry,
the function entries and the null entry. -/
def unitBytes (strx : StdString → BitVec 32) (symbols : List (Symbol T)) : ByteBuffer :=
  u16Bytes 2 ++ u32Bytes 0 ++ u8Bytes (BitVec.ofNat 8 T.size) ++ u8Bytes 1 ++
    u16Bytes (BitVec.ofNat 16 DW_LANG_ObjC) ++ symbols.flatMap (functionBytes strx) ++ u8Bytes 0

def infoBytes (strx : StdString → BitVec 32) (symbols : List (Symbol T)) : ByteBuffer :=
  u32Bytes (toU32 (unitBytes strx symbols).length) ++ unitBytes strx symbols

theorem foldlM_appendFunction_eq_ok_iff (m : NameToOffset) (symbols : List (Symbol T))
    (buffer r : ByteBuffer) :
    symbols.foldlM (appendFunction m) buffer = .ok r ↔
      (∀ s ∈ symbols, m.lookup s.name ≠ none) ∧
        r = buffer ++ symbols.flatMap (functionBytes (offsetIn m)) := by
  induction symbols generalizing buffer with
  | nil =>
    simp only [List.foldlM_nil, List.not_mem_nil, false_implies, implies_true, true_and,
      List.flatMap_nil, List.append_nil]
    exact ⟨fun h => (Except.ok.inj h).symm, fun h => congrArg Except.ok h.symm⟩
  | cons s symbols ih =>
    have hstep (b' : ByteBuffer) : appendFunction m buffer s = .ok b' ↔
        m.lookup s.name ≠ none ∧ b' = buffer ++ functionBytes (offsetIn m) s := by
      simp only [appendFunction, bind_eq_ok, cAssert_eq_ok, appendToBuffer, functionBytes,
        offsetIn, List.append_assoc]
      constructor
      · rintro ⟨-, hs, h⟩
        exact ⟨hs, (Except.ok.inj h).symm⟩
      · rintro ⟨hs, rfl⟩
        exact ⟨⟨⟩, hs, rfl⟩
    simp only [foldlM_cons_eq_ok, hstep, ih]
    constructor
    · rintro ⟨b', ⟨hs, rfl⟩, hrest, rfl⟩
      refine ⟨?_, by simp⟩
      intro t ht
      rcases List.mem_cons.mp ht with rfl | ht
      · exact hs
      · exact hrest t ht
    · rintro ⟨hall, rfl⟩
      exact ⟨_, ⟨hall s List.mem_cons_self, rfl⟩,
        fun t ht => hall t (List.mem_cons_of_mem s ht), by simp⟩

theorem fillLength_eq (rest : ByteBuffer) :
    fillLength (u32Bytes 0 ++ rest) = u32Bytes (toU32 rest.length) ++ rest := by
  have hlength : (u32Bytes 0 ++ rest).length - 4 = rest.length := by
    rw [List.length_append, length_u32Bytes]
    omega
  unfold fillLength
  rw [hlength, List.drop_left' (length_u32Bytes 0)]

theorem dump_eq_ok_iff (m : NameToOffset) (symbols : List (Symbol T)) (r : ByteBuffer) :
    dump symbols m = .ok r ↔
      (∀ s ∈ symbols, m.lookup s.name ≠ none) ∧ r = infoBytes (offsetIn m) symbols := by
  unfold dump
  simp only [bind_eq_ok, foldlM_appendFunction_eq_ok_iff]
  have hfill : fillLength (appendToBuffer (appendToBuffer (appendToBuffer (appendToBuffer
      (appendToBuffer (appendToBuffer (appendToBuffer [] (u32Bytes 0)) (u16Bytes 2)) (u32Bytes 0))
      (u8Bytes (BitVec.ofNat 8 T.size))) (u8Bytes 1)) (u16Bytes (BitVec.ofNat 16 DW_LANG_ObjC)) ++
      symbols.flatMap (functionBytes (offsetIn m))) (u8Bytes 0)) = infoBytes (offsetIn m) symbols := by
    unfold infoBytes
    rw [← fillLength_eq]
    simp only [appendToBuffer, unitBytes, List.nil_append, List.append_assoc]
  constructor
  · rintro ⟨b', ⟨hall, rfl⟩, h⟩
    rw [hfill] at h
    exact ⟨hall, (Except.ok.inj h).symm⟩
  · rintro ⟨hall, rfl⟩
    exact ⟨_, ⟨hall, rfl⟩, by rw [hfill]; rfl⟩

theorem length_functionBytes (strx : StdString → BitVec 32) (s : Symbol T) :
    (functionBytes strx s).length = 5 + 2 * T.size := by
  simp only [functionBytes, List.length_append, length_u8Bytes, length_addrBytes, length_u32Bytes]
  omega

theorem length_unitBytes (strx : StdString → BitVec 32) (symbols : List (Symbol T)) :
    (unitBytes strx symbols).length = 11 + symbols.length * (5 + 2 * T.size) := by
  have hfunctions : (symbols.flatMap (functionBytes strx)).length =
      symbols.length * (5 + 2 * T.size) := by
    simp [List.length_flatMap, length_functionBytes]
  simp only [unitBytes, List.length_append, length_u8Bytes, length_u16Bytes, length_u32Bytes,
    hfunctions]
  omega

theorem length_infoBytes (strx : StdString → BitVec 32) (symbols : List (Symbol T)) :
    (infoBytes strx symbols).length = 15 + symbols.length * (5 + 2 * T.size) := by
  unfold infoBytes
  rw [List.length_append, length_u32Bytes, length_unitBytes]
  omega

end DwarfDebugInfoSection

theorem DwarfDebugAbbrevSection.dump_eq : DwarfDebugAbbrevSection.dump =
    [1, 0x11, 1, 0x13, 0x05, 0, 0, 2, 0x2e, 0, 0x11, 0x01, 0x12, 0x01, 0x03, 0x0e, 0, 0] := by
  decide

/-- The line section, byte by byte: the object has two padding bytes behind `version`
and three behind `opcode_base`, and its lengths count them. -/
theorem DwarfDummyDebugLineSection.dump_eq (stack : StackContents) :
    DwarfDummyDebugLineSection.dump stack =
      [16, 0, 0, 0, 2, 0, 0, 0, 10, 0, 0, 0, 1, 1, 0, 0, 1, 0, 0, 0] := by
  unfold DwarfDummyDebugLineSection.dump
  rfl

end DSYMCreator
