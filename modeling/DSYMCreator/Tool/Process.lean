import DSYMCreator.Runs.Exactly
import DSYMCreator.Tool.Macho
import DSYMCreator.Tool.Main

/-!
# A run of the tool

`main` checks its flags, reads the symbols, builds the file as a buffer and writes
it. Exceptions of the program's own class are reported on the standard error and
make the exit status; whatever else goes wrong ends the run without one. The flags
are those that the flag library hands over.
-/
namespace DSYMCreator

open Text

inductive ExceptionCode
  | kShouldNotOccur
  | kParamInvalid
  | kReadFailed
  | kWriteFailed
  | kNotImplement
  deriving DecidableEq, Repr

/-- `(int)code` -/
def ExceptionCode.toInt : ExceptionCode → ℕ
  | kShouldNotOccur => 1
  | kParamInvalid => 2
  | kReadFailed => 3
  | kWriteFailed => 4
  | kNotImplement => 5

structure Exception where
  code : ExceptionCode
  description : StdString
  deriving DecidableEq, Repr

/-- What ends the work in `main`: an exception of the program, or one of the library or a failed
assertion, which no handler catches. -/
inductive Thrown
  | exception (e : Exception)
  | vmbase (e : ConversionError)
  | noSymbolFile
  | symbolFile (e : ReadFailure)
  | dump (e : Failure)
  deriving DecidableEq, Repr

/-- The files by their paths, and what was printed. -/
@[ext]
structure World where
  files : Bytes → Option Bytes
  stdout : Bytes
  stderr : Bytes

def World.setFile (w : World) (path content : Bytes) : World :=
  { w with files := Function.update w.files path (some content) }

/-- A line to `std::cout`. -/
def World.printOut (w : World) (line : StdString) : World :=
  { w with stdout := w.stdout ++ line ++ [newline] }

/-- A line to `std::cerr`. -/
def World.printErr (w : World) (line : StdString) : World :=
  { w with stderr := w.stderr ++ line ++ [newline] }

/-- What the run depends on besides: the stack, and how the file system answers. -/
structure Host where
  stack : StackContents
  /-- `errno`, if the file cannot be opened for writing. -/
  openFails : Bytes → Option ℕ
  /-- `fseek` in the opened file succeeds. -/
  seeks : Bytes → ℕ → Bool
  /-- How many of so many bytes `fwrite` writes. -/
  fwrite : Bytes → ℕ → ℕ
  fwrite_le : ∀ path n, fwrite path n ≤ n

structure Flags where
  uuid : StdString
  rawIdaSymbol : StdString
  output : StdString
  dwarfSectionVmbase : StdString
  arm64 : Bool

abbrev Process := EStateM Thrown World

/-- `ss << n` -/
def decimal (n : ℕ) : StdString := ascii (toString n)

def throwException {α : Type} (code : ExceptionCode) (description : StdString) : Process α :=
  throw (.exception ⟨code, description⟩)

namespace Util

/-- The content of a file after bytes were written at a position; a gap reads as zeros. -/
def writtenAt (content : Bytes) (start : ℕ) (bytes : Bytes) : Bytes :=
  if bytes = [] then content
  else
    (content ++ List.replicate (start - content.length) 0).take start ++ bytes ++
      content.drop (start + bytes.length)

/-- `util::write` to an open file. -/
def writeTo (host : Host) (T : AddrType) (file : StdString) (start size : Addr T)
    (buffer : ByteBuffer) : Process Unit := do
  let failed : Process Unit := throwException .kWriteFailed
    (ascii "write failed, from: " ++ decimal start.toNat ++ ascii ", size: " ++ decimal size.toNat)
  if host.seeks file start.toNat then
    let wroted := host.fwrite file size.toNat
    modify fun w =>
      w.setFile file (writtenAt ((w.files file).getD []) start.toNat (buffer.take wroted))
    if size.toNat = wroted then return else failed
  else failed

/-- `util::write` to the file at a path, which is emptied when it is opened. -/
def write (host : Host) (T : AddrType) (file : StdString) (start size : Addr T)
    (buffer : ByteBuffer) : Process Unit := do
  match host.openFails file with
  | some errno =>
    throwException .kShouldNotOccur
      (ascii "write file failed, file: " ++ file ++ ascii ", errno: " ++ decimal errno)
  | none =>
    modify fun w => w.setFile file []
    writeTo host T file start size buffer

end Util

def initGflagConfig (flags : Flags) : Process Unit :=
  if flags.uuid.length = 0 ∨ flags.rawIdaSymbol.length = 0 ∨ flags.dwarfSectionVmbase.length = 0 ∨
      flags.output.length = 0 then
    throwException .kParamInvalid (ascii "invalid param, please check the usage")
  else return

/-- `build_failed_result` -/
def buildFailedResult (e : Exception) : StdString :=
  ascii "\x7b\"error\":" ++ decimal e.code.toInt ++ ascii ", \"description\":\"" ++ e.description ++
    ascii "\"\x7d"

/-- `read_raw_symbol_data_from_path` -/
def readRawSymbolDataFromPath (T : AddrType) (path : StdString) : Process (List (Symbol T)) := do
  match (← get).files path with
  | none => throw .noSymbolFile
  | some content =>
    match readRawSymbolData T content with
    | .ok symbols => return symbols
    | .error e => throw (.symbolFile e)

def dumpSymbolToFile (host : Host) (T : AddrType) (uuid symbolFilePath : StdString) (vmbase : Addr T)
    (outputFilePath : StdString) : Process Unit := do
  let symbols ← readRawSymbolDataFromPath T symbolFilePath
  let buffer ← match Macho.dump host.stack uuid symbols vmbase with
    | .ok buffer => pure buffer
    | .error e => throw (.dump e)
  -- the length is cast to `T`
  Util.write host T outputFilePath 0 (BitVec.ofNat _ buffer.length) buffer
  modify fun w => w.printOut (ascii "create symbol file success: " ++ outputFilePath)

/-- The template argument that `main` chooses. -/
def Flags.addrType (flags : Flags) : AddrType := if flags.arm64 then .uint64 else .uint32

/-- The work of `main`; both branches are alike for their type. -/
def mainWork (host : Host) (flags : Flags) : Process Unit := do
  initGflagConfig flags
  let vmbase ← match parseVmbase flags.addrType flags.dwarfSectionVmbase with
    | .ok vmbase => pure vmbase
    | .error e => throw (.vmbase e)
  dumpSymbolToFile host flags.addrType flags.uuid flags.rawIdaSymbol vmbase flags.output

/-- `main`, with its exit status. -/
def main (host : Host) (flags : Flags) : Process ℕ :=
  tryCatch
    (do
      mainWork host flags
      return 0)
    fun
      | .exception e => do
        modify fun w => w.printErr (buildFailedResult e)
        return e.code.toInt
      | thrown => throw thrown

end DSYMCreator
