import DSYMCreator.Tool.Basic
import DSYMCreator.Text.Lines

/-!
# Reading the inputs of the tool

`main` parses the base address, and `read_raw_symbol_data_from_path` the symbol
lines. Numbers are converted with `stoull` and then cast to `T`. The file has to
be UTF-8; lines and fields are cut at single bytes of it.
-/
namespace DSYMCreator

open Text

/-- How reading the symbols ends without a result: one of two assertions fails, or a
conversion throws. -/
inductive ReadFailure
  | notUtf8
  | fieldCount
  | conversion (e : ConversionError)
  deriving DecidableEq, Repr

/-- `(T)std::stoull(s, nullptr, 16)`. -/
def stoullTo (T : AddrType) (s : Bytes) : Except ConversionError (Addr T) :=
  (stoull s).map fun v => v.setWidth (8 * T.size)

/-- `FLAGS_dwarf_section_vmbase` as a `T`: `stoul` has 64 bits where the tool runs, so
both branches convert alike and the 32-bit one casts. -/
def parseVmbase (T : AddrType) (flag : Bytes) : Except ConversionError (Addr T) := stoullTo T flag

/-- The characters of a `UTF8String` end at its first NUL. -/
def cStr (s : Bytes) : Bytes := s.takeWhile (· ≠ 0)

/-- A conversion that throws ends the run. -/
def convert (T : AddrType) (s : Bytes) : Except ReadFailure (Addr T) :=
  match stoullTo T (cStr s) with
  | .ok v => .ok v
  | .error e => .error (.conversion e)

/-- One line that is not empty. -/
def readSymbolLine (T : AddrType) (line : Bytes) : Except ReadFailure (Symbol T) :=
  match line.splitOn tab with
  | [base, fin, name] => do
    let name := cStr name
    let base ← convert T base
    let fin ← convert T fin
    return ⟨name, base, fin⟩
  | _ => .error .fieldCount

/-- The loop over the lines, with the symbols so far. -/
def readSymbolLines (T : AddrType) : List Bytes → Except ReadFailure (List (Symbol T))
  | [] => .ok []
  | line :: lines => do
    if line = [] then readSymbolLines T lines
    else
      let s ← readSymbolLine T line
      let rest ← readSymbolLines T lines
      return s :: rest

/-- `read_raw_symbol_data_from_path`, from the content of the file. -/
def readRawSymbolData (T : AddrType) (content : Bytes) : Except ReadFailure (List (Symbol T)) :=
  if content.toByteArray.IsValidUTF8 then readSymbolLines T (content.splitOn newline)
  else .error .notUtf8

end DSYMCreator
