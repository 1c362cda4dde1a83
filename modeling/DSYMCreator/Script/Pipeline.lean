import DSYMCreator.Script.IdcScript
import DSYMCreator.Script.MainScript
import DSYMCreator.Tool.ObjcInput

/-!
# What the script is for

From the bytes of a binary to the bytes of its symbol file, without paths, files and
commands. The programs of others are functions of the binary; `Documented` says
that `bash` runs them, and the script's own `macho-dump.py`, on paths that it takes
as they are.
-/
namespace DSYMCreator.MainScript

open Text Text.PosixPath Python Binary

/-- The programs that are not part of the repository. -/
structure Tools where
  /-- the lines of `objc-symbols --arch` -/
  objcSymbols : Arch → Bytes → List Bytes
  /-- the file of `lipo -thin`, if the binary has this architecture -/
  lipo : Arch → Bytes → Option Bytes
  /-- the database that IDA makes of a binary -/
  ida : Bytes → Database
  /-- the files that IDA keeps beside a binary -/
  idaFiles : Bytes → Set Bytes

/-- The part of the binary for one architecture. -/
def Tools.thin (tools : Tools) (arm64 : Bool) (binary : Bytes) : Option Bytes :=
  let head := binary.take 4
  if head.length = 4 then
    if leNat head = 0xbebafeca then tools.lipo (arch arm64) binary
    else if leNat head = 0xfeedface ∧ arm64 = false then some binary
    else if leNat head = 0xfeedfacf ∧ arm64 = true then some binary
    else none
  else none

/-- The text with the symbols of a binary, from Objective-C or from IDA. -/
def Tools.rawSymbols (tools : Tools) (options : Options) (thin : Bytes) : Option Bytes :=
  if options.onlyObjc then
    (DSYMCreator.extractRawSymbolFromObjcSymbols
      (tools.objcSymbols (arch options.arm64) thin)).toOption
  else some (printAllMethod (tools.ida thin).visited)

/-- The part of the pipeline behind the texts that were scraped. -/
def buildFile (T : AddrType) (stack : StackContents) (text uuid : Bytes) (offset : PyInt) :
    Option ByteBuffer := do
  let vmbase ← (parseVmbase T offset.hex).toOption
  let symbols ← (readRawSymbolData T text).toOption
  (Macho.dump stack uuid symbols vmbase).toOption

/-- The symbol file of a thin binary with the symbols in a text. -/
def thinSymbolFile (T : AddrType) (stack : StackContents) (thin text : Bytes) :
    Option ByteBuffer := do
  let uuid ← (DSYMCreator.extractUuidFromBinary thin).toOption
  let offset ← (DSYMCreator.calculateDwarfSectionsMinFileOffsetFromBinary thin).toOption
  buildFile T stack text uuid offset

/-- The symbol file of a binary. -/
def symbolFile (stack : StackContents) (tools : Tools) (options : Options) (binary : Bytes) :
    Option ByteBuffer := do
  let thin ← tools.thin options.arm64 binary
  let text ← tools.rawSymbols options thin
  thinSymbolFile (arch options.arm64).addrType stack thin text

/-! ## The outside programs -/

/-- A path that `bash` takes as one word. -/
def PlainWord (path : Bytes) : Prop :=
  path ≠ [] ∧ ∀ c ∈ path, isWordChar c = true ∨ c = slash ∨ c = ch '.' ∨ c = ch '-'

-- The instance over the list, not the one that tries every byte.
instance (path : Bytes) : Decidable (PlainWord path) :=
  @instDecidableAnd _ _ _ (List.decidableBAll _ path)

/-- `bash` runs the commands of the script as the programs are documented. -/
structure Documented (m : Machine) (tools : Tools) : Prop where
  toolchain : PlainWord m.toolchainDir
  objcSymbols_files : ∀ arm64 path w, PlainWord path →
    (m.bash (objcSymbolsCommand m arm64 path) w).world.files = w.files
  objcSymbols : ∀ arm64 path w binary, PlainWord path → w.files path = some binary →
    (m.bash (objcSymbolsCommand m arm64 path) w).status = 0 ∧
      (m.bash (objcSymbolsCommand m arm64 path) w).output =
        unlines (sortLines (tools.objcSymbols (arch arm64) binary))
  uuid_files : ∀ path w, PlainWord path →
    (m.bash (uuidCommand m path) w).world.files = w.files
  /-- The status is that of the last command, which fails without a match. -/
  uuid : ∀ path w binary, PlainWord path → w.files path = some binary →
    (m.bash (uuidCommand m path) w).status =
        (if scrapeUuids (MachoDump.machoDump binary) = [] then 1 else 0) ∧
      (m.bash (uuidCommand m path) w).output =
        unlines (scrapeUuids (MachoDump.machoDump binary))
  segments_files : ∀ path w, PlainWord path →
    (m.bash (segmentsCommand m path) w).world.files = w.files
  segments : ∀ path w binary, PlainWord path → w.files path = some binary →
    (m.bash (segmentsCommand m path) w).status = 0 ∧
      (m.bash (segmentsCommand m path) w).output = scrapePairs (MachoDump.machoDump binary)
  lipo_files : ∀ arm64 path w, PlainWord path → ∀ p, p ≠ freshBinaryPath arm64 →
    (m.bash (lipoCommand arm64 path (freshBinaryPath arm64)) w).world.files p = w.files p
  lipo : ∀ arm64 path w binary, PlainWord path → w.files path = some binary →
    match tools.lipo (arch arm64) binary with
    | some thin => (m.bash (lipoCommand arm64 path (freshBinaryPath arm64)) w).status = 0 ∧
        (m.bash (lipoCommand arm64 path (freshBinaryPath arm64)) w).world.files
          (freshBinaryPath arm64) = some thin
    | none => (m.bash (lipoCommand arm64 path (freshBinaryPath arm64)) w).status ≠ 0
  ida_files : ∀ path w, PlainWord path → ∀ p, p ≠ rawSymbolPath → p ∉ tools.idaFiles path →
    (m.bash (idaCommand m path) w).world.files p = w.files p
  /-- The loop of `all.idc` has as many tests as it takes. -/
  ida : ∀ path w binary, PlainWord path → w.files path = some binary →
    (m.bash (idaCommand m path) w).status = 0 ∧
      ∀ n, (tools.ida binary).functions.card < n →
        (m.bash (idaCommand m path) w).world.files rawSymbolPath =
          (tools.ida binary).printMethods n
  /-- The binary is not one of the files beside it. -/
  ida_keeps : ∀ path, path ∉ tools.idaFiles path

end DSYMCreator.MainScript
