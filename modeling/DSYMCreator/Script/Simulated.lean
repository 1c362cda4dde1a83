import DSYMCreator.Script.Pipeline

/-!
# A machine that behaves as documented

For any outside programs there is a machine on which `bash` runs them as documented:
it takes a command apart and finds out which of the script's commands it is.
-/
namespace DSYMCreator.MainScript

open Text Text.PosixPath

/-- The commands of the script, without the path of the binary. -/
inductive Command
  | objcSymbols (arm64 : Bool)
  | uuid
  | segments
  | lipo (arm64 : Bool)
  | ida
  deriving DecidableEq, Repr

namespace Command

def all : List Command :=
  [.objcSymbols false, .objcSymbols true, .uuid, .segments, .lipo false, .lipo true, .ida]

theorem mem_all (c : Command) : c ∈ all := by
  cases c with
  | objcSymbols arm64 => cases arm64 <;> decide
  | lipo arm64 => cases arm64 <;> decide
  | uuid => decide
  | segments => decide
  | ida => decide

/-- What stands in front of the path, for a toolchain in `/t`. -/
def front : Command → Bytes
  | .objcSymbols arm64 => ascii "/t/objc-symbols --arch " ++ archName arm64 ++ ascii " "
  | .uuid => ascii "/t/macho-dump.py "
  | .segments => ascii "/t/macho-dump.py "
  | .lipo arm64 => ascii "lipo -thin " ++ archName arm64 ++ ascii " "
  | .ida => idaExePath ++ ascii " -S\"/t/IDAScript/all.idc \"" ++ rawSymbolPath ++ ascii "\"\" "

/-- What stands behind the path. -/
def back : Command → Bytes
  | .objcSymbols _ => ascii " | sort"
  | .uuid => ascii " 2>/dev/null | grep uuid | egrep -o \x27\\w\x7b8\x7d-\\w\x7b4\x7d-\\w\x7b4\x7d-\\w\x7b4\x7d-\\w\x7b12\x7d\x27"
  | .segments => ascii " 2>/dev/null | egrep \"vm_addr|vm_size\" | egrep -o \"[0-9]+\" | paste - -"
  | .lipo arm64 => ascii " -output " ++ freshBinaryPath arm64
  | .ida => []

def text (c : Command) (path : Bytes) : Bytes := c.front ++ path ++ c.back

/-- What the programs of a command do with the binary at a path. -/
def run (tools : Tools) (path : Bytes) (w : World) (c : Command) : BashResult :=
  match c, w.files path with
  | .objcSymbols arm64, some binary =>
    ⟨0, unlines (sortLines (tools.objcSymbols (arch arm64) binary)), w⟩
  | .uuid, some binary =>
    let found := scrapeUuids (MachoDump.machoDump binary)
    ⟨if found = [] then 1 else 0, unlines found, w⟩
  | .segments, some binary => ⟨0, scrapePairs (MachoDump.machoDump binary), w⟩
  | .lipo arm64, some binary =>
    match tools.lipo (arch arm64) binary with
    | some thin => ⟨0, [], w.setFile (freshBinaryPath arm64) thin⟩
    | none => ⟨1, [], w⟩
  | .ida, some binary =>
    ⟨0, [], w.setFile rawSymbolPath (printAllMethod (tools.ida binary).visited)⟩
  | _, none => ⟨1, [], w⟩

/-! ## Taking a command apart -/

/-- The text between two ends. -/
def between (front back command : Bytes) : Option Bytes :=
  if front <+: command ∧ back <:+ command ∧ front.length + back.length ≤ command.length then
    some ((command.drop front.length).take (command.length - front.length - back.length))
  else none

theorem between_text (c : Command) (path : Bytes) :
    between c.front c.back (c.text path) = some path := by
  have hhead : c.front <+: c.text path := ⟨path ++ c.back, (List.append_assoc _ _ _).symm⟩
  have htail : c.back <:+ c.text path := ⟨c.front ++ path, rfl⟩
  have hlength : (c.text path).length = c.front.length + path.length + c.back.length := by
    simp [text, Nat.add_assoc]
  unfold between
  rw [if_pos ⟨hhead, htail, by omega⟩, hlength]
  have hrest : c.front.length + path.length + c.back.length - c.front.length - c.back.length =
      path.length := by omega
  rw [hrest, text, List.append_assoc, List.drop_left, List.take_left]

/-- Two commands differ in what stands in front of the path or in what stands behind it. -/
def Apart (c d : Command) : Prop :=
  (¬ c.front <+: d.front ∧ ¬ d.front <+: c.front) ∨ (¬ c.back <:+ d.back ∧ ¬ d.back <:+ c.back)

instance (c d : Command) : Decidable (Apart c d) := inferInstanceAs (Decidable (_ ∨ _))

theorem all_apart : ∀ c ∈ all, ∀ d ∈ all, c ≠ d → Apart c d := by decide +kernel

theorem between_of_apart {c d : Command} (h : Apart c d) (path : Bytes) :
    between c.front c.back (d.text path) = none := by
  unfold between
  rw [if_neg]
  rintro ⟨hhead, htail, -⟩
  rcases h with ⟨hc, hd⟩ | ⟨hc, hd⟩
  · have hfront : d.front <+: d.text path := ⟨path ++ d.back, (List.append_assoc _ _ _).symm⟩
    rcases List.prefix_or_prefix_of_prefix hhead hfront with h | h
    · exact hc h
    · exact hd h
  · have hback : d.back <:+ d.text path := ⟨d.front ++ path, rfl⟩
    rcases List.suffix_or_suffix_of_suffix htail hback with h | h
    · exact hc h
    · exact hd h

/-- The command that the text is, with the path in it. -/
def parse (command : Bytes) : Option (Command × Bytes) :=
  all.findSome? fun c => (between c.front c.back command).map fun path => (c, path)

theorem findSome?_text {cs : List Command} (hsub : ∀ c ∈ cs, c ∈ all) {d : Command} (hd : d ∈ cs)
    (path : Bytes) :
    (cs.findSome? fun c => (between c.front c.back (d.text path)).map fun path => (c, path)) =
      some (d, path) := by
  induction cs with
  | nil => cases hd
  | cons c cs ih =>
    rw [List.findSome?_cons]
    by_cases hcd : c = d
    · rw [hcd, between_text]
      rfl
    · have hapart := all_apart c (hsub c List.mem_cons_self) d (mem_all d) hcd
      have hmem := (List.mem_cons.mp hd).resolve_left fun h => hcd h.symm
      rw [between_of_apart hapart]
      exact ih (fun e he => hsub e (List.mem_cons_of_mem c he)) hmem

theorem parse_text (c : Command) (path : Bytes) : parse (c.text path) = some (c, path) :=
  findSome?_text (fun _ h => h) (mem_all c) path

end Command

/-- `bash` on this machine; it knows no other command. -/
def simulatedBash (tools : Tools) (command : Bytes) (w : World) : BashResult :=
  match Command.parse command with
  | some (c, path) => c.run tools path w
  | none => ⟨127, [], w⟩

def simulated (tools : Tools) (host : Host) (cwd : Bytes) : Machine :=
  ⟨host, cwd, ascii "/t", simulatedBash tools⟩

theorem simulated_bash (tools : Tools) (host : Host) (cwd : Bytes) (c : Command) (path : Bytes)
    (w : World) : (simulated tools host cwd).bash (c.text path) w = c.run tools path w := by
  change simulatedBash tools (c.text path) w = _
  unfold simulatedBash
  rw [Command.parse_text]

section

variable (tools : Tools) (host : Host) (cwd path : Bytes)

theorem objcSymbolsCommand_simulated (arm64 : Bool) :
    objcSymbolsCommand (simulated tools host cwd) arm64 path =
      (Command.objcSymbols arm64).text path := by
  cases arm64 <;> rfl

theorem uuidCommand_simulated :
    uuidCommand (simulated tools host cwd) path = Command.uuid.text path := rfl

theorem segmentsCommand_simulated :
    segmentsCommand (simulated tools host cwd) path = Command.segments.text path := rfl

theorem idaCommand_simulated :
    idaCommand (simulated tools host cwd) path = Command.ida.text path := by
  unfold Command.text
  rw [Command.back, List.append_nil]
  rfl

theorem lipoCommand_simulated (arm64 : Bool) :
    lipoCommand arm64 path (freshBinaryPath arm64) = (Command.lipo arm64).text path := by
  unfold Command.text lipoCommand Command.back
  rw [List.append_assoc]
  rfl

theorem documented_simulated (hkeeps : ∀ path, path ∉ tools.idaFiles path) :
    Documented (simulated tools host cwd) tools where
  toolchain := by
    change PlainWord (ascii "/t")
    decide
  objcSymbols_files arm64 path w _ := by
    rw [objcSymbolsCommand_simulated, simulated_bash]
    cases hfile : w.files path <;> simp only [Command.run, hfile]
  objcSymbols arm64 path w binary _ hfile := by
    rw [objcSymbolsCommand_simulated, simulated_bash]
    simp only [Command.run, hfile, and_self]
  uuid_files path w _ := by
    rw [uuidCommand_simulated, simulated_bash]
    cases hfile : w.files path <;> simp only [Command.run, hfile]
  uuid path w binary _ hfile := by
    rw [uuidCommand_simulated, simulated_bash]
    simp only [Command.run, hfile, and_self]
  segments_files path w _ := by
    rw [segmentsCommand_simulated, simulated_bash]
    cases hfile : w.files path <;> simp only [Command.run, hfile]
  segments path w binary _ hfile := by
    rw [segmentsCommand_simulated, simulated_bash]
    simp only [Command.run, hfile, and_self]
  lipo_files arm64 path w _ p hp := by
    rw [lipoCommand_simulated, simulated_bash]
    cases hfile : w.files path with
    | none => simp only [Command.run, hfile]
    | some binary =>
      cases htools : tools.lipo (arch arm64) binary with
      | none => simp only [Command.run, hfile, htools]
      | some thin =>
        simp only [Command.run, hfile, htools, World.setFile]
        exact Function.update_of_ne hp _ _
  lipo arm64 path w binary _ hfile := by
    rw [lipoCommand_simulated, simulated_bash]
    cases htools : tools.lipo (arch arm64) binary with
    | none => simp [Command.run, hfile, htools]
    | some thin =>
      simp only [Command.run, hfile, htools, World.setFile, true_and]
      exact Function.update_self _ _ _
  ida_files path w _ p hp _ := by
    rw [idaCommand_simulated, simulated_bash]
    cases hfile : w.files path with
    | none => simp only [Command.run, hfile]
    | some binary =>
      simp only [Command.run, hfile, World.setFile]
      exact Function.update_of_ne hp _ _
  ida path w binary _ hfile := by
    rw [idaCommand_simulated, simulated_bash]
    simp only [Command.run, hfile, World.setFile, true_and]
    intro n hn
    rw [Function.update_self, Database.printMethods_eq _ hn]
  ida_keeps := hkeeps

end

end DSYMCreator.MainScript
