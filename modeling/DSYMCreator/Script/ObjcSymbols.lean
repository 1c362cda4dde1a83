import DSYMCreator.Script.Python
import DSYMCreator.Order.Successive

/-!
# Symbols from the list of Objective-C methods

`extract_raw_symbol_from_objc_symbols` sorts the lines of `objc-symbols` as text
and turns them into ranges in one loop: a line closes the range of the line
before it, and the last range is closed with a fake length.
-/
namespace DSYMCreator

open Text Python Successive

/-- One element `[start, end, name]` of the list that the loop builds. -/
structure RawSymbol where
  start : PyInt
  fin : PyInt
  name : Bytes

/-- `symbol[1] = end`, and the fake end of the last symbol. -/
def RawSymbol.close (fin : PyInt) (s : RawSymbol) : RawSymbol := { s with fin := fin }
def RawSymbol.fakeEnd (s : RawSymbol) : RawSymbol := s.close (s.start + .ofValue 0x1000)

/-- What `run_bash` returns for the output of a command. -/
def runBash (output : Bytes) : Bytes := strip output

/-- One iteration: `start -= 1`, `symbols[-1][1] = start`, `symbols.append(..)`. -/
def addLine (symbols : List RawSymbol) (l : Bytes) : Except Error (List RawSymbol) := do
  let (start, name) ← unpackSplit blank l
  let start ← int 16 start
  let start := start - .ofValue 1
  let symbols :=
    if 0 < symbols.length then modifyLast (RawSymbol.close start) symbols else symbols
  return symbols ++ [⟨start, .ofValue 0, name⟩]

/-- The loop, and the end address of the last symbol. -/
def collectSymbols (rawSymbols : Bytes) : Except Error (List RawSymbol) := do
  let symbols ← (rawSymbols.splitOn newline).foldlM addLine []
  if symbols = [] then .error .indexError
  else return modifyLast RawSymbol.fakeEnd symbols

/-- `'%s\t%s\t%s' % (hex(x[0]), hex(x[1]), x[2])`. -/
def formatSymbol (s : RawSymbol) : Bytes := joinWith tab [s.start.hex, s.fin.hex, s.name]

def formatSymbols (symbols : List RawSymbol) : Bytes :=
  joinWith newline (symbols.map formatSymbol)

/-- The text that the function writes, from the lines that `objc-symbols` prints. -/
def extractRawSymbolFromObjcSymbols (lines : List Bytes) : Except Error Bytes := do
  let rawSymbols := runBash (unlines (sortLines lines))
  let symbols ← collectSymbols rawSymbols
  return formatSymbols symbols

/-! ## Lines of `objc-symbols` -/

/-- The architecture that the script asks `objc-symbols` for. -/
inductive Arch
  | armv7
  | arm64
  deriving DecidableEq, Repr

/-- What an `IMP` field can be: the Thumb bit is set, or the address is a multiple of 4. -/
def Arch.IsImp : Arch → ℕ → Prop
  | armv7, a => a ≠ 0 ∧ (a % 2 = 1 ∨ a % 4 = 0)
  | arm64, a => a ≠ 0 ∧ a % 4 = 0

/-- Where an instruction can start. -/
def Arch.IsInstruction : Arch → ℕ → Prop
  | armv7, pc => pc % 2 = 0
  | arm64, pc => pc % 4 = 0

instance : (arch : Arch) → (a : ℕ) → Decidable (arch.IsImp a)
  | .armv7, _ => inferInstanceAs (Decidable (_ ∧ (_ ∨ _)))
  | .arm64, _ => inferInstanceAs (Decidable (_ ∧ _))

instance : (arch : Arch) → (pc : ℕ) → Decidable (arch.IsInstruction pc)
  | .armv7, _ => inferInstanceAs (Decidable (_ = _))
  | .arm64, _ => inferInstanceAs (Decidable (_ = _))

theorem Arch.IsImp.even_or {arch : Arch} {a : ℕ} (h : arch.IsImp a) :
    a ≠ 0 ∧ (a % 2 = 1 ∨ a % 4 = 0) := by
  cases arch with
  | armv7 => exact h
  | arm64 => exact ⟨h.1, .inr h.2⟩

theorem Arch.IsInstruction.even {arch : Arch} {pc : ℕ} (h : arch.IsInstruction pc) : pc % 2 = 0 := by
  cases arch with
  | armv7 => exact h
  | arm64 =>
    have h4 : pc % 4 = 0 := h
    omega

/-- A method as the tool prints it: the digits of its `IMP` and its name. -/
structure Method where
  digits : List ℕ
  name : Bytes
  digits_ne : digits ≠ []
  digits_lt : ∀ d ∈ digits, d < 16
  name_ne : name ≠ []
  name_line : newline ∉ name
  name_end : ∀ c ∈ name.getLast?, isSpace c = false

namespace Method

/-- The `IMP` field. -/
def address (m : Method) : ℕ := ofDigits m.digits

def line (m : Method) : Bytes := m.digits.map hexDigit ++ blank :: m.name

/-- The address of the first instruction: bit 0 is the Thumb bit. -/
def code (m : Method) : ℕ := m.address - m.address % 2

/-- `start` after the correction. -/
def start (m : Method) : PyInt := .ofValue m.address - .ofValue 1

/-- The symbol while it is the last one, once the next line closed it, and at the end. -/
def opened (m : Method) : RawSymbol := ⟨m.start, .ofValue 0, m.name⟩
def closedBy (m next : Method) : RawSymbol := ⟨m.start, next.start, m.name⟩
def faked (m : Method) : RawSymbol := ⟨m.start, m.start + .ofValue 0x1000, m.name⟩

theorem close_opened (m n : Method) : m.opened.close n.start = m.closedBy n := rfl

theorem fakeEnd_opened (m : Method) : m.opened.fakeEnd = m.faked := rfl

theorem not_mem_digits {m : Method} {c : UInt8} (hc : isSpace c = true) :
    c ∉ m.digits.map hexDigit := by
  intro hmem
  obtain ⟨d, hd, rfl⟩ := List.mem_map.mp hmem
  have hno := (hexDigit_ne (m.digits_lt d hd)).2.1
  rw [hno] at hc
  cases hc

theorem newline_not_mem_line (m : Method) : newline ∉ m.line := by
  unfold line
  rw [List.mem_append, List.mem_cons]
  rintro (h | h | h)
  · exact not_mem_digits (by decide) h
  · exact absurd h (by decide)
  · exact m.name_line h

theorem trimmed_line (m : Method) : Trimmed m.line := by
  obtain ⟨d, ds, hdigits⟩ := List.exists_cons_of_ne_nil m.digits_ne
  have hd := (hexDigit_ne (m.digits_lt d (by rw [hdigits]; exact List.mem_cons_self))).2.1
  refine ⟨by simp [line], ?_, ?_⟩
  · intro c hc
    rw [line, hdigits] at hc
    obtain rfl : hexDigit d = c := by simpa using hc
    exact hd
  · intro c hc
    have hsplit : m.line = (m.digits.map hexDigit ++ [blank]) ++ m.name := by simp [line]
    rw [hsplit, List.getLast?_append_of_ne_nil _ m.name_ne] at hc
    exact m.name_end c hc

theorem line_lt_of_lt {m n : Method} (hlen : m.digits.length = n.digits.length)
    (h : m.address < n.address) : m.line < n.line :=
  digits_lt_of_lt m.digits_lt n.digits_lt hlen h _ _

theorem addLine_line (symbols : List RawSymbol) (m : Method) :
    addLine symbols m.line = .ok
      ((if 0 < symbols.length then modifyLast (RawSymbol.close m.start) symbols else symbols) ++
        [m.opened]) := by
  have hsplit : unpackSplit blank m.line = .ok (m.digits.map hexDigit, m.name) := by
    unfold unpackSplit
    rw [line, splitFirst_append (not_mem_digits (by decide))]
  unfold addLine
  rw [hsplit]
  change (int 16 (m.digits.map hexDigit) >>= fun start => _) = _
  rw [int_digits m.digits_ne m.digits_lt]
  rfl

/-- After each line the list is the chain of the methods so far, the last one open. -/
theorem foldlM_addLine (seen ms : List Method) :
    (ms.map line).foldlM addLine (chain closedBy opened seen) =
      .ok (chain closedBy opened (seen ++ ms)) := by
  induction ms generalizing seen with
  | nil =>
    rw [List.append_nil]
    rfl
  | cons m ms ih =>
    have hstep : addLine (chain closedBy opened seen) m.line =
        .ok (chain closedBy opened (seen ++ [m])) := by
      rw [addLine_line]
      cases seen with
      | nil => rfl
      | cons s seen =>
        have hpos : 0 < (chain closedBy opened (s :: seen)).length := by
          cases seen <;> simp [chain]
        have hclose : modifyLast (RawSymbol.close m.start) (chain closedBy opened (s :: seen)) ++
            [m.opened] = chain closedBy opened (s :: seen ++ [m]) :=
          chain_concat (fun n => RawSymbol.close n.start) close_opened (List.cons_ne_nil s seen) m
        rw [if_pos hpos, hclose]
    have hrest := ih (seen ++ [m])
    rw [List.append_assoc, List.singleton_append] at hrest
    rw [List.map_cons, List.foldlM_cons, hstep]
    exact hrest

/-- The methods in the order of their lines. -/
def sorted (ms : List Method) : List Method := ms.insertionSort fun m n => m.line ≤ n.line

theorem sorted_perm (ms : List Method) : (sorted ms).Perm ms := List.perm_insertionSort ..

theorem sorted_ne_nil {ms : List Method} (hne : ms ≠ []) : sorted ms ≠ [] := by
  intro h
  have hperm := sorted_perm ms
  rw [h] at hperm
  exact hne (List.nil_perm.mp hperm)

theorem sortLines_lines (ms : List Method) : sortLines (ms.map line) = (sorted ms).map line :=
  (List.map_insertionSort _ _ line ms fun _ _ _ _ => Iff.rfl).symm

/-- The list that is written: the methods in order, each with its range. -/
def written (ms : List Method) : List RawSymbol := chain closedBy faked (sorted ms)

theorem map_written {κ : Type} {g : RawSymbol → κ} {k : Method → κ}
    (hnext : ∀ m n : Method, g (m.closedBy n) = k m) (hlast : ∀ m : Method, g m.faked = k m)
    (ms : List Method) : (written ms).map g = (sorted ms).map k := map_chain hnext hlast (sorted ms)

theorem collectSymbols_lines {ms : List Method} (hne : ms ≠ []) :
    collectSymbols (joinWith newline (ms.map line)) = .ok (chain closedBy faked ms) := by
  have hlines : (joinWith newline (ms.map line)).splitOn newline = ms.map line := by
    refine splitOn_joinWith ?_ (by simpa using hne)
    intro l hl
    obtain ⟨m, -, rfl⟩ := List.mem_map.mp hl
    exact m.newline_not_mem_line
  have hloop : (ms.map line).foldlM addLine [] = .ok (chain closedBy opened ms) :=
    foldlM_addLine [] ms
  have hnotnil : chain closedBy opened ms ≠ [] := by
    rcases ms with _ | ⟨m, _ | ⟨n, ms⟩⟩
    · exact absurd rfl hne
    · simp [chain]
    · simp [chain]
  have hlast : modifyLast RawSymbol.fakeEnd
      (chain closedBy opened ms) = chain closedBy faked ms :=
    modifyLast_chain RawSymbol.fakeEnd fakeEnd_opened ms
  unfold collectSymbols
  rw [hlines, hloop]
  change (if chain closedBy opened ms = [] then _ else _) = _
  rw [if_neg hnotnil, hlast]
  rfl

theorem extract_lines {ms : List Method} (hne : ms ≠ []) :
    extractRawSymbolFromObjcSymbols (ms.map line) = .ok (formatSymbols (written ms)) := by
  have hsorted := sorted_ne_nil hne
  have hbash : runBash (unlines (sortLines (ms.map line))) =
      joinWith newline ((sorted ms).map line) := by
    rw [sortLines_lines, runBash]
    refine strip_unlines ?_ (by simpa using hsorted)
    intro l hl
    obtain ⟨m, -, rfl⟩ := List.mem_map.mp hl
    exact m.trimmed_line
  rw [extractRawSymbolFromObjcSymbols, hbash, collectSymbols_lines hsorted]
  rfl

end Method

end DSYMCreator
