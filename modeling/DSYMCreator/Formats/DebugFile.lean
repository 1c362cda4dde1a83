import DSYMCreator.Formats.Dwarf
import DSYMCreator.Formats.MachO
import DSYMCreator.Text.Numerals

/-!
# What a debugger finds in a symbol file

A debugger gets the debug sections out of a Mach-O file by their names and decodes
the subprograms. An address is symbolicated with those whose range it is in.
-/
namespace DebugFile

open Text Dwarf

structure Function where
  name : List UInt8
  low : ℕ
  high : ℕ
  deriving DecidableEq, Repr

/-- A subprogram with a name and a range: tag `0x2e`, attributes `0x03`, `0x11` and `0x12`. -/
def function? : Die → Option Function
  | .mk tag attrs _ =>
    if tag = 0x2e then
      match attrs.lookup 0x03, attrs.lookup 0x11, attrs.lookup 0x12 with
      | some (.string name), some (.address low), some (.address high) => some ⟨name, low, high⟩
      | _, _, _ => none
    else none

def unitFunctions (u : CompileUnit) : List Function :=
  match u.die with
  | .mk _ _ children => children.filterMap function?

/-- All functions of a file, in its order. -/
def functions (file : List UInt8) : Option (List Function) := do
  let f ← MachO.readFile file
  let info ← f.findSection (ascii "__debug_info")
  let abbrevs ← f.findSection (ascii "__debug_abbrev")
  let strings ← f.findSection (ascii "__debug_str")
  let units ← readDebugInfo (MachO.sectionData file info) (MachO.sectionData file abbrevs)
    (MachO.sectionData file strings)
  return units.flatMap unitFunctions

def Function.contains (pc : ℕ) (f : Function) : Bool := f.low ≤ pc && pc < f.high

/-- The names of the functions around an address. -/
def symbolicate (file : List UInt8) (pc : ℕ) : Option (List (List UInt8)) :=
  (functions file).map fun fs => (fs.filter (Function.contains pc)).map Function.name

theorem functions_eq {file : List UInt8} {f : MachO.File} {info abbrevs strings : MachO.SectionHeader}
    {units : List CompileUnit} (hfile : MachO.readFile file = some f)
    (hinfo : f.findSection (ascii "__debug_info") = some info)
    (habbrevs : f.findSection (ascii "__debug_abbrev") = some abbrevs)
    (hstrings : f.findSection (ascii "__debug_str") = some strings)
    (hunits : readDebugInfo (MachO.sectionData file info) (MachO.sectionData file abbrevs)
      (MachO.sectionData file strings) = some units) :
    functions file = some (units.flatMap unitFunctions) := by
  unfold functions
  simp only [hfile, hinfo, habbrevs, hstrings, hunits, Option.bind_eq_bind, Option.bind_some]
  rfl

end DebugFile
