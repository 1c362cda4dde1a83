import DSYMCreator.Script.IdcScript
import DSYMCreator.Properties.SymbolText

/-!
# From the database to the symbols

The tool reads the file of the IDA script as one symbol for each function of the
database, by ascending address. The loop starts behind address 0, so a function
there is left out.
-/
namespace DSYMCreator

open Text NextElement

variable {T : AddrType}

namespace Database

/-- The tool can read the lines of the database: its numbers are values of `T`, and its names
are names of a line. -/
structure Readable (db : Database) (T : AddrType) : Prop where
  start : ∀ a ∈ db.functions, a < 2 ^ (8 * T.size)
  fin : ∀ a ∈ db.functions, db.functionEnd a < 2 ^ (8 * T.size)
  name : ∀ a ∈ db.functions, LineName (db.functionName a)

/-- The function at an address as a symbol. -/
def symbol (db : Database) (T : AddrType) (addr : ℕ) : Symbol T :=
  ⟨db.functionName addr, BitVec.ofNat _ addr, BitVec.ofNat _ (db.functionEnd addr)⟩

/-- The symbols of the functions behind address 0. -/
def symbols (db : Database) (T : AddrType) : List (Symbol T) :=
  (above db.functions 0).map (db.symbol T)

theorem symbols_toFunction {db : Database} (h : db.Readable T) :
    (db.symbols T).map Symbol.toFunction = db.visited := by
  unfold symbols visited
  rw [List.map_map]
  apply List.map_congr_left
  intro a ha
  have hmem := (mem_above.mp ha).1
  have hstart := Nat.mod_eq_of_lt (h.start a hmem)
  have hfin := Nat.mod_eq_of_lt (h.fin a hmem)
  simp [symbol, Symbol.toFunction, function, BitVec.toNat_ofNat, hstart, hfin]

theorem readRawSymbolData_visited {db : Database} (h : db.Readable T) :
    readRawSymbolData T (printAllMethod db.visited) = .ok (db.symbols T) := by
  rw [← symbols_toFunction h]
  apply readRawSymbolData_unlines
  apply lineOf_formatFunctions
  intro s hs
  obtain ⟨a, ha, rfl⟩ := List.mem_map.mp hs
  exact h.name a (mem_above.mp ha).1

/-- The loop ends for every database. From the lines of a readable one the tool reads one symbol for
each function behind address 0, by strictly ascending address. -/
theorem printMethods_readBack (db : Database) (T : AddrType) :
    ∃ text, (∀ n, db.functions.card < n → db.printMethods n = some text) ∧
      (db.Readable T → ∃ symbols, readRawSymbolData T text = .ok symbols ∧
        symbols.Pairwise (fun s t => s.base.toNat < t.base.toNat) ∧
        ∀ s : Symbol T, s ∈ symbols ↔ ∃ a ∈ db.functions, 0 < a ∧ s = db.symbol T a) := by
  refine ⟨_, fun n hn => db.printMethods_eq hn, ?_⟩
  intro h
  refine ⟨_, readRawSymbolData_visited h, ?_, ?_⟩
  · unfold symbols
    rw [List.pairwise_map]
    apply (above_pairwise db.functions 0).imp_of_mem
    intro a b ha hb hab
    have hstart := Nat.mod_eq_of_lt (h.start a (mem_above.mp ha).1)
    have hstart' := Nat.mod_eq_of_lt (h.start b (mem_above.mp hb).1)
    simpa [symbol, BitVec.toNat_ofNat, hstart, hstart'] using hab
  · intro s
    unfold symbols
    rw [List.mem_map]
    simp only [mem_above, and_assoc, eq_comm]

/-- Two functions of a 32-bit database. -/
def twoFunctions : Database where
  functions := {0x8000, 0x9000}
  badAddr := 0xffffffff
  nextFunction ea := if ea < 0x8000 then 0x8000 else if ea < 0x9000 then 0x9000 else 0xffffffff
  functionEnd a := a + 0x40
  functionName a := ascii (if a = 0x8000 then "start" else "sub_9000")
  finds := by
    refine ⟨by decide, fun a ha => ?_, fun a ha b hb => ?_⟩
    · split_ifs at ha ⊢ with h₁ h₂
      · exact ⟨by simp [h₁], fun b hb => by simp at hb; omega⟩
      · exact ⟨by simp [h₂], fun b hb => by simp at hb; omega⟩
      · exact absurd rfl ha
    · simp only [Finset.mem_insert, Finset.mem_singleton] at hb
      split_ifs at ha with h₁ h₂ <;> omega

theorem above_twoFunctions : above twoFunctions.functions 0 = [0x8000, 0x9000] := by
  have hstep := twoFunctions.finds.above_eq
  have hend : above twoFunctions.functions 0x9000 = [] := by
    rw [hstep]
    rfl
  have hsecond : above twoFunctions.functions 0x8000 = [0x9000] := by
    rw [hstep, ← hend]
    rfl
  rw [hstep, ← hsecond]
  rfl

theorem twoFunctions_readable : twoFunctions.Readable .uint32 := by
  have hname (name : Bytes) (hascii : name.all (fun c => 32 ≤ c && c < 127) = true) :
      LineName name := by
    have hrange (c : UInt8) (hc : c ∈ name) : 32 ≤ c ∧ c < 127 := by
      simpa using List.all_eq_true.mp hascii c hc
    refine ⟨fun h => absurd (hrange _ h).1 (by decide), fun h => absurd (hrange _ h).1 (by decide),
      fun h => absurd (hrange _ h).1 (by decide), isUtf8_of_ascii fun c hc => ?_⟩
    exact UInt8.lt_trans (hrange c hc).2 (by decide)
  refine ⟨by decide, by decide, ?_⟩
  intro a ha
  simp only [twoFunctions, Finset.mem_insert, Finset.mem_singleton] at ha
  rcases ha with rfl | rfl
  · exact hname _ (by decide)
  · exact hname _ (by decide)

theorem twoFunctions_readBack :
    ∃ text symbols, (∀ n, twoFunctions.functions.card < n → twoFunctions.printMethods n = some text) ∧
      readRawSymbolData .uint32 text = .ok symbols ∧
      symbols.Pairwise (fun s t => s.base.toNat < t.base.toNat) ∧
      ∀ s : Symbol .uint32, s ∈ symbols ↔
        ∃ a ∈ twoFunctions.functions, 0 < a ∧ s = twoFunctions.symbol .uint32 a := by
  obtain ⟨text, hends, hread⟩ := printMethods_readBack twoFunctions .uint32
  obtain ⟨symbols, hsymbols, hsorted, hmem⟩ := hread twoFunctions_readable
  exact ⟨text, symbols, hends, hsymbols, hsorted, hmem⟩

end Database

end DSYMCreator
