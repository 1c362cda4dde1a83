import DSYMCreator.Script.SegmentScrape
import DSYMCreator.Script.UuidScrape
import DSYMCreator.Text.PosixPath
import DSYMCreator.Tool.Process

/-!
# `main.py`

The script finds a path for the symbol file, has `bash` run its commands and starts
the tool. What `bash` makes of a command is a parameter, and so are the directories
of the run and the answers of the file system.
-/
namespace DSYMCreator.MainScript

open Text Text.PosixPath Python Binary

/-- What a command leaves: its status, its standard output and the rest. -/
structure BashResult where
  status : ℕ
  output : Bytes
  world : World

structure Machine where
  host : Host
  cwd : Bytes
  /-- `TOOLCHAIN_DIR` -/
  toolchainDir : Bytes
  bash : Bytes → World → BashResult

structure Options where
  onlyObjc : Bool
  arm64 : Bool
  binaryPath : Bytes

abbrev Script := EStateM ScriptError World

/-- `sys.exit(1)` behind a line to the standard error. -/
def exitWith {α : Type} (line : Bytes) : Script α := do
  modify fun w => w.printErr line
  throw (.exit 1)

/-- `open(path, 'r').read()` -/
def readFile (path : Bytes) : Script Bytes := do
  match (← get).files path with
  | some content => return content
  | none => throw .io

/-- `open(path, 'w').write(content)` -/
def writeFile (m : Machine) (path content : Bytes) : Script Unit :=
  match m.host.openFails path with
  | some _ => throw .io
  | none => modify fun w => w.setFile path content

/-- The exceptions of a function that reads text. -/
def python {α : Type} (result : Except Error α) : Script α :=
  match result with
  | .ok a => return a
  | .error e => throw (.python e)

def shellPath : Bytes := ascii "/tmp/dsym_creator_temp_shell.sh"
def rawSymbolPath : Bytes := ascii "/tmp/dsym_creator_raw_symbol.txt"
def idaExePath : Bytes := ascii "/Applications/idaq.app/Contents/MacOS/idaq"

/-- `run_bash`: `bash` reads the command from the file. -/
def runBash (m : Machine) (command : Bytes) : Script Bytes := do
  writeFile m shellPath command
  let result ← modifyGet fun w => (m.bash command w, (m.bash command w).world)
  match checkOutput result.status result.output with
  | .ok text => return text
  | .error e => throw e

/-- `'arm64' if is_arm64 else 'armv7'` -/
def arch (arm64 : Bool) : Arch := if arm64 then .arm64 else .armv7

def archName (arm64 : Bool) : Bytes := if arm64 then ascii "arm64" else ascii "armv7"

/-! ## The commands -/

def objcSymbolsCommand (m : Machine) (arm64 : Bool) (binaryPath : Bytes) : Bytes :=
  join m.toolchainDir (ascii "objc-symbols") ++ ascii " --arch " ++ archName arm64 ++ ascii " " ++
    binaryPath ++ ascii " | sort"

def lipoCommand (arm64 : Bool) (binaryPath freshBinaryPath : Bytes) : Bytes :=
  ascii "lipo -thin " ++ archName arm64 ++ ascii " " ++ binaryPath ++ ascii " -output " ++
    freshBinaryPath

def idaCommand (m : Machine) (binaryPath : Bytes) : Bytes :=
  idaExePath ++ ascii " -S\"" ++ join (join m.toolchainDir (ascii "IDAScript")) (ascii "all.idc") ++
    ascii " \"" ++ rawSymbolPath ++ ascii "\"\" " ++ binaryPath

def uuidCommand (m : Machine) (binaryPath : Bytes) : Bytes :=
  join m.toolchainDir (ascii "macho-dump.py") ++ ascii " " ++ binaryPath ++
    ascii " 2>/dev/null | grep uuid | egrep -o \x27\\w\x7b8\x7d-\\w\x7b4\x7d-\\w\x7b4\x7d-\\w\x7b4\x7d-\\w\x7b12\x7d\x27"

def segmentsCommand (m : Machine) (binaryPath : Bytes) : Bytes :=
  join m.toolchainDir (ascii "macho-dump.py") ++ ascii " " ++ binaryPath ++
    ascii " 2>/dev/null | egrep \"vm_addr|vm_size\" | egrep -o \"[0-9]+\" | paste - -"

/-! ## The functions -/

def freshBinaryPath (arm64 : Bool) : Bytes := ascii "/tmp/dsym_creator_binary_" ++ archName arm64

def extractThinIfBinaryIsFat (m : Machine) (binaryPath : Bytes) (arm64 : Bool) : Script Bytes := do
  let content ← readFile binaryPath
  let head := content.take 4
  if head.length = 4 then
    let magicNum := leNat head
    if magicNum = 0xbebafeca then
      let _ ← runBash m (lipoCommand arm64 binaryPath (freshBinaryPath arm64))
      return freshBinaryPath arm64
    else if magicNum = 0xfeedface ∧ arm64 = false then return binaryPath
    else if magicNum = 0xfeedfacf ∧ arm64 = true then return binaryPath
    else exitWith (ascii "invalid binary file: " ++ binaryPath)
  else throw .struct

def extractRawSymbolFromObjcSymbols (m : Machine) (binaryPath : Bytes) (arm64 : Bool) :
    Script Bytes := do
  let rawSymbols ← runBash m (objcSymbolsCommand m arm64 binaryPath)
  let symbols ← python (collectSymbols rawSymbols)
  writeFile m rawSymbolPath (formatSymbols symbols)
  return rawSymbolPath

def makeSureIdaExists : Script Unit := do
  match (← get).files idaExePath with
  | some _ => return
  | none =>
    exitWith (ascii "IDA Pro is not installed at " ++ idaExePath ++ ascii ", please install first")

def extractRawSymbolFromIda (m : Machine) (binaryPath : Bytes) : Script Bytes := do
  let _ ← runBash m (idaCommand m binaryPath)
  return rawSymbolPath

def extractUuidFromBinary (m : Machine) (binaryPath : Bytes) : Script Bytes :=
  runBash m (uuidCommand m binaryPath)

def calculateDwarfSectionsMinFileOffsetFromBinary (m : Machine) (binaryPath : Bytes) :
    Script PyInt := do
  let result ← runBash m (segmentsCommand m binaryPath)
  python (calculateDwarfSectionsMinFileOffset result)

/-- `subprocess.call`: a program that does not end by itself has a return code that is not 0. -/
def call (program : Process ℕ) : Script (Option ℕ) := fun w =>
  match program w with
  | .ok status w' => .ok (some status) w'
  | .error _ w' => .ok none w'

def dsymcreatorFormatSymbol (m : Machine) (uuid rawIdaSymbol : Bytes) (dwarfSectionOffset : PyInt)
    (output : Bytes) (arm64 : Bool) : Script Unit := do
  let flags : Flags := ⟨uuid, rawIdaSymbol, output, dwarfSectionOffset.hex, arm64⟩
  let retcode ← call (DSYMCreator.main m.host flags)
  if retcode = some 0 then return else exitWith (ascii "DSYMCreator run failed!")

/-- `output_symbol_path` -/
def outputSymbolPath (cwd binaryPath : Bytes) : Bytes :=
  let (binaryDir, binaryFileName) := split (abspath cwd binaryPath)
  join binaryDir (binaryFileName ++ ascii ".symbol")

/-- The two modes of `main`. -/
def extractRawSymbol (m : Machine) (options : Options) (binaryPath : Bytes) : Script Bytes := do
  if options.onlyObjc then extractRawSymbolFromObjcSymbols m binaryPath options.arm64
  else
    makeSureIdaExists
    extractRawSymbolFromIda m binaryPath

def main (m : Machine) (options : Options) : Script ℕ := do
  let binaryPath ← extractThinIfBinaryIsFat m (abspath m.cwd options.binaryPath) options.arm64
  let rawSymbol ← extractRawSymbol m options binaryPath
  let uuid ← extractUuidFromBinary m binaryPath
  let dwarfSectionsMinOffset ← calculateDwarfSectionsMinFileOffsetFromBinary m binaryPath
  dsymcreatorFormatSymbol m uuid rawSymbol dwarfSectionsMinOffset
    (outputSymbolPath m.cwd options.binaryPath) options.arm64
  return 0

end DSYMCreator.MainScript
