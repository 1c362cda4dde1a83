import DSYMCreator.Binary.FileParser
import DSYMCreator.Formats.MachO
import DSYMCreator.Formats.MachOImageBounds

/-!
# Two ways to read a Mach-O file

The parser of little-endian files takes field after field, and an image has its fields
at the offsets of the format. On a file that is parsed they say the same, command by
command.
-/
namespace MachO

open Binary Binary.Parser

/-- The image in a little-endian file. -/
def lsbImage (file : List UInt8) (is64 : Bool) : Image := ⟨file, true, is64⟩

structure SectionAgrees (m : Image) (wide : Bool) (off : ℕ) (s : SectionHeader) : Prop where
  sectname : trimName (m.bytes off 16) = s.sectname
  segname : trimName (m.bytes (off + 16) 16) = s.segname
  reloff : m.relocOffset wide off = s.reloff
  nreloc : m.relocCount wide off = s.nreloc

structure SegmentAgrees (m : Image) (wide : Bool) (off : ℕ) (seg : Segment) : Prop where
  segname : trimName (m.bytes (off + 8) 16) = seg.segname
  range : m.segmentRange wide off = (seg.vmaddr, seg.vmsize)
  count : m.sectionCount wide off = seg.sections.length
  sections : ∀ i s, seg.sections[i]? = some s →
    SectionAgrees m wide (Image.sectionOffset wide off i) s

structure SymtabAgrees (m : Image) (off : ℕ) (t : Symtab) : Prop where
  symoff : m.u32 (off + 8) = t.symoff
  nsyms : m.symbolCount off = t.nsyms
  stroff : m.u32 (off + 16) = t.stroff
  strsize : m.u32 (off + 20) = t.strsize

/-- What the parser says of the contents of a command, in terms of the image. -/
def BodyAgrees (m : Image) (off : ℕ) : Body → Prop
  | .segment seg => ∃ wide, m.kindAt off = .segment wide ∧ SegmentAgrees m wide off seg
  | .symtab t => m.kindAt off = .symtab ∧ SymtabAgrees m off t
  | .uuid payload => m.kindAt off = .uuid ∧ m.bytes (off + 8) 16 = payload
  | .unknown => m.kindAt off = .dysymtab ∨ m.kindAt off = .other

structure CommandAgrees (m : Image) (off : ℕ) (c : LoadCommand) : Prop where
  cmd : m.u32 off = c.cmd
  cmdsize : m.u32 (off + 4) = c.cmdsize
  inside : off + c.extent ≤ m.file.length
  extent : m.kindAt off ≠ .dysymtab → m.extent off = c.extent
  body : BodyAgrees m off c.body

section

variable {file rest : List UInt8} {is64 wide : Bool} {off : ℕ}

theorem readsRecords_sectionHeader (is64 : Bool) : ReadsRecords file (sectionHeader wide)
    (Image.sectionSize wide) (SectionAgrees (lsbImage file is64) wide) := by
  intro off hoff s rest h
  unfold sectionHeader name16 at h
  simp only [bind_assoc, pure_bind] at h
  obtain ⟨h₁, h⟩ := bind_bytes hoff h
  obtain ⟨h₂, h⟩ := bind_bytes h₁ h
  obtain ⟨h₃, h⟩ := bind_uint h₂ h
  obtain ⟨h₄, h⟩ := bind_uint h₃ h
  obtain ⟨h₅, h⟩ := bind_uint h₄ h
  obtain ⟨h₆, h⟩ := bind_uint h₅ h
  obtain ⟨h₇, h⟩ := bind_uint h₆ h
  obtain ⟨h₈, h⟩ := bind_uint h₇ h
  obtain ⟨h₉, h⟩ := bind_uint h₈ h
  obtain ⟨h₁₀, h⟩ := bind_uint h₉ h
  obtain ⟨h₁₁, h⟩ := bind_uint h₁₀ h
  obtain ⟨h₁₂, h⟩ := bind_uint h₁₁ h
  cases h
  cases wide with
  | false => exact ⟨h₁₂, rfl, rfl, rfl, rfl, rfl⟩
  | true => exact ⟨h₁₂, rfl, rfl, rfl, rfl, rfl⟩

theorem segment_drop (is64 : Bool) (hoff : off + 8 ≤ file.length) {seg : Segment}
    (h : segment wide (file.drop (off + 8)) = some (seg, rest)) :
    off + Image.segmentSize wide + seg.sections.length * Image.sectionSize wide ≤ file.length ∧
      rest = file.drop (off + Image.segmentSize wide +
        seg.sections.length * Image.sectionSize wide) ∧
      SegmentAgrees (lsbImage file is64) wide off seg := by
  unfold segment name16 at h
  simp only [bind_assoc, pure_bind] at h
  obtain ⟨h₁, h⟩ := bind_bytes hoff h
  obtain ⟨h₂, h⟩ := bind_uint h₁ h
  obtain ⟨h₃, h⟩ := bind_uint h₂ h
  obtain ⟨h₄, h⟩ := bind_uint h₃ h
  obtain ⟨h₅, h⟩ := bind_uint h₄ h
  obtain ⟨h₆, h⟩ := bind_uint h₅ h
  obtain ⟨h₇, h⟩ := bind_uint h₆ h
  obtain ⟨h₈, h⟩ := bind_uint h₇ h
  obtain ⟨h₉, h⟩ := bind_uint h₈ h
  obtain ⟨sections, rest', htimes, h⟩ := bind_eq_some h
  cases h
  obtain ⟨hinside, hrest, hlength, hsections⟩ :=
    times_drop (readsRecords_sectionHeader is64) h₉ htimes
  cases wide with
  | false => exact ⟨hlength ▸ hinside, hlength ▸ hrest, rfl, rfl, hlength.symm, hsections⟩
  | true => exact ⟨hlength ▸ hinside, hlength ▸ hrest, rfl, rfl, hlength.symm, hsections⟩

theorem symtab_drop (is64 : Bool) (hoff : off + 8 ≤ file.length) {t : Symtab}
    (h : symtab (file.drop (off + 8)) = some (t, rest)) :
    off + 24 ≤ file.length ∧ rest = file.drop (off + 24) ∧
      SymtabAgrees (lsbImage file is64) off t := by
  unfold symtab at h
  obtain ⟨h₁, h⟩ := bind_uint hoff h
  obtain ⟨h₂, h⟩ := bind_uint h₁ h
  obtain ⟨h₃, h⟩ := bind_uint h₂ h
  obtain ⟨h₄, h⟩ := bind_uint h₃ h
  cases h
  exact ⟨h₄, rfl, rfl, rfl, rfl, rfl⟩

theorem body_eq (cmd cmdsize : ℕ) : body cmd cmdsize = match commandKind cmd with
    | .segment wide => do return .segment (← segment wide)
    | .symtab => do return .symtab (← symtab)
    | .uuid => do return .uuid (← bytes 16)
    | _ => do
      let _ ← bytes (cmdsize - 8)
      return .unknown := by
  by_cases hsegment : cmd = 1
  · subst hsegment
    rfl
  by_cases hsymtab : cmd = 2
  · subst hsymtab
    rfl
  by_cases hdysymtab : cmd = 11
  · subst hdysymtab
    rfl
  by_cases hsegment64 : cmd = 25
  · subst hsegment64
    rfl
  by_cases huuid : cmd = 27
  · subst huuid
    rfl
  · have hother : commandKind cmd = .other := by
      simp only [commandKind, if_neg hsegment, if_neg hsymtab, if_neg hdysymtab,
        if_neg hsegment64, if_neg huuid]
    have hbody : body cmd cmdsize = do
        let _ ← bytes (cmdsize - 8)
        return .unknown :=
      (if_neg hsegment).trans ((if_neg hsegment64).trans ((if_neg hsymtab).trans (if_neg huuid)))
    rw [hother]
    exact hbody

theorem body_drop (is64 : Bool) (hoff : off + 8 ≤ file.length) {b : Body}
    (h : body ((lsbImage file is64).u32 off) ((lsbImage file is64).u32 (off + 4))
      (file.drop (off + 8)) = some (b, rest)) :
    ∃ extent, off + extent ≤ file.length ∧ rest = file.drop (off + extent) ∧
      ((lsbImage file is64).kindAt off ≠ .dysymtab → (lsbImage file is64).extent off = extent) ∧
      BodyAgrees (lsbImage file is64) off b := by
  have hcmd : commandKind ((lsbImage file is64).u32 off) = (lsbImage file is64).kindAt off := rfl
  rw [body_eq, hcmd] at h
  cases hkind : (lsbImage file is64).kindAt off with
  | segment wide =>
    have hextent : (lsbImage file is64).extent off = Image.segmentSize wide +
        (lsbImage file is64).sectionCount wide off * Image.sectionSize wide := by
      rw [Image.extent, hkind]
    rw [hkind] at h
    obtain ⟨seg, rest', hseg, h⟩ := bind_eq_some h
    cases h
    obtain ⟨hinside, hrest, hagrees⟩ := segment_drop is64 hoff hseg
    rw [Nat.add_assoc] at hinside hrest
    rw [hagrees.count] at hextent
    exact ⟨_, hinside, hrest, fun _ => hextent, wide, hkind, hagrees⟩
  | symtab =>
    have hextent : (lsbImage file is64).extent off = 24 := by rw [Image.extent, hkind]
    rw [hkind] at h
    obtain ⟨t, rest', htable, h⟩ := bind_eq_some h
    cases h
    obtain ⟨hinside, hrest, hagrees⟩ := symtab_drop is64 hoff htable
    exact ⟨24, hinside, hrest, fun _ => hextent, hkind, hagrees⟩
  | uuid =>
    have hextent : (lsbImage file is64).extent off = 24 := by rw [Image.extent, hkind]
    rw [hkind] at h
    obtain ⟨hinside, h⟩ := bind_bytes hoff h
    cases h
    exact ⟨24, hinside, rfl, fun _ => hextent, hkind, rfl⟩
  | dysymtab =>
    rw [hkind] at h
    obtain ⟨hinside, h⟩ := bind_bytes hoff h
    cases h
    exact ⟨8 + ((lsbImage file is64).u32 (off + 4) - 8), by omega, by rw [Nat.add_assoc],
      fun hne => absurd rfl hne, .inl hkind⟩
  | other =>
    have hextent : (lsbImage file is64).extent off = max 8 ((lsbImage file is64).u32 (off + 4)) := by
      rw [Image.extent, hkind]
    rw [hkind] at h
    obtain ⟨hinside, h⟩ := bind_bytes hoff h
    cases h
    exact ⟨8 + ((lsbImage file is64).u32 (off + 4) - 8), by omega, by rw [Nat.add_assoc],
      fun _ => hextent.trans (by omega), .inr hkind⟩

theorem le_of_loadCommand {c : ℕ × ℕ × Body} (h : loadCommand (file.drop off) = some (c, rest)) :
    off ≤ file.length := by
  by_contra hbeyond
  rw [List.drop_eq_nil_of_le (by omega)] at h
  cases h

theorem loadCommand_drop (is64 : Bool) {cmd cmdsize : ℕ} {b : Body}
    (h : loadCommand (file.drop off) = some ((cmd, cmdsize, b), rest)) :
    CommandAgrees (lsbImage file is64) off
      ⟨cmd, cmdsize, b, (file.drop off).length - rest.length⟩ := by
  have hoff := le_of_loadCommand h
  unfold loadCommand at h
  obtain ⟨h₁, h⟩ := bind_uint hoff h
  obtain ⟨h₂, h⟩ := bind_uint h₁ h
  obtain ⟨b', rest', hbody, h⟩ := bind_eq_some h
  cases h
  obtain ⟨extent, hinside, rfl, hextent, hagrees⟩ := body_drop is64 h₂ hbody
  have hlength : (file.drop off).length - (file.drop (off + extent)).length = extent := by
    rw [List.length_drop, List.length_drop]
    omega
  rw [hlength]
  exact ⟨rfl, rfl, hinside, hextent, hagrees⟩

theorem readCommands_agree {n : ℕ} {cs : List LoadCommand}
    (h : readCommands file n off = some cs) :
    List.Forall₂ (CommandAgrees (lsbImage file is64))
      ((lsbImage file is64).commandsFrom off n) cs := by
  induction n generalizing off cs with
  | zero =>
    cases h
    exact .nil
  | succ n ih =>
    unfold readCommands at h
    cases hcommand : loadCommand (file.drop off) with
    | none =>
      rw [hcommand] at h
      cases h
    | some r =>
      obtain ⟨⟨cmd, cmdsize, b⟩, rest⟩ := r
      rw [hcommand] at h
      simp only at h
      have hagrees := loadCommand_drop is64 hcommand
      cases hrest : readCommands file n (off + cmdsize) with
      | none =>
        rw [hrest] at h
        cases h
      | some cs' =>
        rw [hrest] at h
        cases h
        have hnext := hagrees.cmdsize
        simp only at hnext
        rw [Image.commandsFrom]
        exact .cons hagrees (ih (by rw [hnext]; exact hrest))

theorem bind_guard {p : Prop} [Decidable p] {β : Type} {q : Unit → Parser β} {bs : List UInt8}
    {r : β × List UInt8} (h : (guard p >>= q) bs = some r) : p ∧ q () bs = some r := by
  unfold guard at h
  split_ifs at h with hp
  · exact ⟨hp, h⟩
  · cases h

theorem take_of_leNat {v : ℕ} {magic : List UInt8} (hmagic : leBytes 4 v = magic)
    (hfile : 4 ≤ file.length) (h : leNat (file.take 4) = v) : file.take 4 = magic := by
  have hlength : (file.take 4).length = 4 := by
    rw [List.length_take]
    omega
  have hbytes := leBytes_leNat (file.take 4)
  rw [hlength, h, hmagic] at hbytes
  exact hbytes.symm

theorem header_drop {h : Header} (hh : header file = some (h, rest)) :
    image? file = some (lsbImage file h.is64) ∧ (lsbImage file h.is64).u32 16 = h.ncmds ∧
      (lsbImage file h.is64).u32 20 = h.sizeofcmds ∧
      (lsbImage file h.is64).headerSize = h.size := by
  unfold header at hh
  rw [← List.drop_zero (l := file)] at hh
  obtain ⟨h₁, hh⟩ := bind_uint (Nat.zero_le _) hh
  obtain ⟨hmagic, hh⟩ := bind_guard hh
  obtain ⟨h₂, hh⟩ := bind_uint h₁ hh
  obtain ⟨h₃, hh⟩ := bind_uint h₂ hh
  obtain ⟨h₄, hh⟩ := bind_uint h₃ hh
  obtain ⟨h₅, hh⟩ := bind_uint h₄ hh
  obtain ⟨h₆, hh⟩ := bind_uint h₅ hh
  obtain ⟨h₇, hh⟩ := bind_uint h₆ hh
  cases hh
  refine ⟨?_, rfl, rfl, rfl⟩
  rw [Nat.zero_add] at h₁
  change leNat (file.take 4) = magic32 ∨ leNat (file.take 4) = magic64 at hmagic
  change image? file = some (lsbImage file (leNat (file.take 4) == magic64))
  unfold image?
  rcases hmagic with hmagic | hmagic
  · have htake : file.take 4 = [0xce, 0xfa, 0xed, 0xfe] := take_of_leNat rfl h₁ hmagic
    rw [hmagic, htake]
    rfl
  · have htake : file.take 4 = [0xcf, 0xfa, 0xed, 0xfe] := take_of_leNat rfl h₁ hmagic
    rw [hmagic, htake]
    rfl

/-- A file that is parsed is an image, and both readers find the same commands in it. -/
theorem readers_agree {f : File} (h : readFile file = some f) :
    image? file = some (lsbImage file f.header.is64) ∧
      (lsbImage file f.header.is64).headerSize = f.header.size ∧
      (lsbImage file f.header.is64).u32 20 = f.header.sizeofcmds ∧
      List.Forall₂ (CommandAgrees (lsbImage file f.header.is64))
        (lsbImage file f.header.is64).commands f.commands := by
  unfold readFile at h
  cases hheader : header file with
  | none =>
    rw [hheader] at h
    cases h
  | some r =>
    obtain ⟨hd, rest⟩ := r
    rw [hheader] at h
    obtain ⟨cs, hcommands, rfl⟩ := Option.map_eq_some_iff.mp h
    obtain ⟨himage, hncmds, hsizeofcmds, hsize⟩ := header_drop hheader
    refine ⟨himage, hsize, hsizeofcmds, ?_⟩
    unfold Image.commands
    rw [hncmds, hsize]
    exact readCommands_agree hcommands

/-! ## Symbols -/

theorem readsRecords_nlist : ReadsRecords file (nlist is64) (nlistSize is64)
    (fun off n => (lsbImage file is64).u32 off = n.nStrx) := by
  intro off hoff n rest h
  unfold nlist at h
  obtain ⟨h₁, h⟩ := bind_uint hoff h
  obtain ⟨h₂, h⟩ := bind_uint h₁ h
  obtain ⟨h₃, h⟩ := bind_uint h₂ h
  obtain ⟨h₄, h⟩ := bind_uint h₃ h
  obtain ⟨h₅, h⟩ := bind_uint h₄ h
  cases h
  cases is64 with
  | false => exact ⟨h₅, rfl, rfl⟩
  | true => exact ⟨h₅, rfl, rfl⟩

/-- The symbol table and the strings that a command points to are in the file. -/
structure Symtab.Inside (t : Symtab) (file : List UInt8) (is64 : Bool) (ns : List Nlist) :
    Prop where
  symoff : t.symoff ≤ file.length
  read : readSymbols is64 file t = some ns
  strings : t.stroff + t.strsize ≤ file.length
  names : ∀ n ∈ ns, 0 ∈ (slice file t.stroff t.strsize).drop n.nStrx

theorem Symtab.Inside.records {t : Symtab} {ns : List Nlist} (h : t.Inside file is64 ns) :
    t.symoff + t.nsyms * nlistSize is64 ≤ file.length ∧ ns.length = t.nsyms ∧
      ∀ i n, ns[i]? = some n →
        (lsbImage file is64).u32 (t.symoff + i * nlistSize is64) = n.nStrx := by
  have hread := h.read
  unfold readSymbols value? at hread
  obtain ⟨⟨ns', rest⟩, htimes, rfl⟩ := Option.map_eq_some_iff.mp hread
  obtain ⟨hinside, -, hlength, hrecords⟩ := times_drop readsRecords_nlist h.symoff htimes
  exact ⟨hinside, hlength, hrecords⟩

theorem symbolsInside_of_agrees {t : Symtab} {ns : List Nlist}
    (hagrees : SymtabAgrees (lsbImage file is64) off t) (h : t.Inside file is64 ns) :
    (lsbImage file is64).SymbolsInside off := by
  obtain ⟨hinside, hlength, hrecords⟩ := h.records
  have hsize : (lsbImage file is64).nlistSize = nlistSize is64 := rfl
  refine ⟨?_, fun i hi => ?_, fun i hi => ?_⟩
  · rw [hagrees.stroff, hagrees.strsize]
    exact .inr h.strings
  · rw [hagrees.nsyms] at hi
    rw [Image.symbolOffset, hagrees.symoff, hsize]
    have hle : (i + 1) * nlistSize is64 ≤ t.nsyms * nlistSize is64 := Nat.mul_le_mul_right _ hi
    rw [Nat.succ_mul] at hle
    change _ ≤ file.length
    omega
  · rw [hagrees.nsyms, ← hlength] at hi
    have hrecord := hrecords i _ (List.getElem?_eq_getElem hi)
    rw [Image.symbolOffset, hagrees.symoff, hsize, hrecord, Image.stringTable, hagrees.stroff,
      hagrees.strsize]
    exact h.names _ (List.getElem_mem hi)

theorem symbolNames_of_agrees {t : Symtab} {ns : List Nlist}
    (hagrees : SymtabAgrees (lsbImage file is64) off t) (h : t.Inside file is64 ns) :
    (lsbImage file is64).symbolNames off =
      ns.map fun n => Image.nameAt (slice file t.stroff t.strsize) n.nStrx := by
  obtain ⟨-, hlength, hrecords⟩ := h.records
  have hsize : (lsbImage file is64).nlistSize = nlistSize is64 := rfl
  have hcount : (lsbImage file is64).u32 (off + 12) = ns.length := hagrees.nsyms.trans hlength.symm
  unfold Image.symbolNames
  rw [hcount, Image.stringTable, hagrees.stroff, hagrees.strsize, hagrees.symoff, hsize]
  apply List.ext_getElem
  · simp
  · intro i hi hi'
    rw [List.length_map] at hi'
    have hrecord := hrecords i _ (List.getElem?_eq_getElem hi')
    simp only [List.getElem_map, List.getElem_range, hrecord]
    rfl

/-! ## The walk -/

/-- What a command points to is in the file. -/
def BodyInside (file : List UInt8) (is64 : Bool) : Body → Prop
  | .segment seg => ∀ s ∈ seg.sections, s.nreloc = 0 ∨ s.reloff + 8 * s.nreloc ≤ file.length
  | .symtab t => ∃ ns, t.Inside file is64 ns
  | .uuid _ => True
  | .unknown => False

theorem commandFits_of_agrees {c : LoadCommand} (h : CommandAgrees (lsbImage file is64) off c)
    (hsize : c.cmdsize = c.extent) (hinside : BodyInside file is64 c.body) :
    (lsbImage file is64).CommandFits off := by
  obtain ⟨cmd, cmdsize, body, extent⟩ := c
  have hbody := h.body
  have hextent := h.extent
  cases body with
  | segment seg =>
    obtain ⟨wide, hkind, hagrees⟩ := hbody
    rw [hkind] at hextent
    have hlength := hextent (by simp)
    refine ⟨by rw [hlength]; exact h.inside, ?_, by rw [h.cmdsize, hlength]; exact hsize⟩
    unfold Image.PointersInside
    rw [hkind]
    intro i hi
    rw [hagrees.count] at hi
    have hsection := hagrees.sections i _ (List.getElem?_eq_getElem hi)
    unfold Image.SectionInside Image.Spans
    rw [hsection.reloff, hsection.nreloc]
    rcases hinside _ (List.getElem_mem hi) with hnone | hfits
    · exact .inl (by rw [hnone])
    · exact .inr hfits
  | symtab t =>
    obtain ⟨hkind, hagrees⟩ := hbody
    obtain ⟨ns, ht⟩ := hinside
    rw [hkind] at hextent
    have hlength := hextent (by simp)
    refine ⟨by rw [hlength]; exact h.inside, ?_, by rw [h.cmdsize, hlength]; exact hsize⟩
    unfold Image.PointersInside
    rw [hkind]
    exact symbolsInside_of_agrees hagrees ht
  | uuid payload =>
    obtain ⟨hkind, -⟩ := hbody
    rw [hkind] at hextent
    have hlength := hextent (by simp)
    refine ⟨by rw [hlength]; exact h.inside, ?_, by rw [h.cmdsize, hlength]; exact hsize⟩
    unfold Image.PointersInside
    rw [hkind]
    trivial
  | unknown => exact hinside.elim

end

section

variable {m : Image} {offs : List ℕ} {cs : List LoadCommand}

theorem symtabs_agree (h : List.Forall₂ (CommandAgrees m) offs cs) :
    List.Forall₂ (SymtabAgrees m) (offs.filter fun off => m.kindAt off = .symtab)
      (cs.filterMap fun c => match c.body with
        | .symtab t => some t
        | _ => none) := by
  induction h with
  | nil => exact .nil
  | @cons off c offs cs hc _ ih =>
    have hbody := hc.body
    rw [List.filter_cons, List.filterMap_cons]
    cases hb : c.body with
    | segment seg =>
      rw [hb] at hbody
      obtain ⟨wide, hkind, -⟩ := hbody
      simpa [hkind] using ih
    | symtab t =>
      rw [hb] at hbody
      simpa [hbody.1] using List.Forall₂.cons hbody.2 ih
    | uuid payload =>
      rw [hb] at hbody
      simpa [hbody.1] using ih
    | unknown =>
      rw [hb] at hbody
      rcases hbody with hkind | hkind <;> simpa [hkind] using ih

theorem uuids_agree (h : List.Forall₂ (CommandAgrees m) offs cs) :
    ((offs.filter fun off => m.kindAt off = .uuid).map fun off => m.bytes (off + 8) 16) =
      cs.filterMap fun c => match c.body with
        | .uuid p => some p
        | _ => none := by
  induction h with
  | nil => rfl
  | @cons off c offs cs hc _ ih =>
    have hbody := hc.body
    rw [List.filter_cons, List.filterMap_cons]
    cases hb : c.body with
    | segment seg =>
      rw [hb] at hbody
      obtain ⟨wide, hkind, -⟩ := hbody
      simpa [hkind] using ih
    | symtab t =>
      rw [hb] at hbody
      simpa [hbody.1] using ih
    | uuid payload =>
      rw [hb] at hbody
      simpa [hbody.1, hbody.2] using ih
    | unknown =>
      rw [hb] at hbody
      rcases hbody with hkind | hkind <;> simpa [hkind] using ih

theorem cmdsizes_agree (h : List.Forall₂ (CommandAgrees m) offs cs) :
    (offs.map fun off => m.u32 (off + 4)) = cs.map LoadCommand.cmdsize := by
  induction h with
  | nil => rfl
  | cons hc _ ih => rw [List.map_cons, List.map_cons, hc.cmdsize, ih]

end

/-- When everything that is parsed is in its place, the image is walkable. -/
theorem walkable_of_readFile {file : List UInt8} {f : File} (h : readFile file = some f)
    (hheader : f.header.size ≤ file.length)
    (hcommands : ∀ c ∈ f.commands, c.cmdsize = c.extent ∧ BodyInside file f.header.is64 c.body)
    (hone : f.symtabs.length ≤ 1) : (lsbImage file f.header.is64).Walkable := by
  obtain ⟨-, hsize, -, hagree⟩ := readers_agree h
  refine ⟨hsize ▸ hheader, fun off hoff => ?_, ?_⟩
  · obtain ⟨i, hi, rfl⟩ := List.getElem_of_mem hoff
    have hi' : i < f.commands.length := hagree.length_eq ▸ hi
    obtain ⟨hextent, hinside⟩ := hcommands _ (List.getElem_mem hi')
    exact commandFits_of_agrees (hagree.get hi hi') hextent hinside
  · unfold Image.symtabs
    rw [(symtabs_agree hagree).length_eq]
    exact hone

end MachO
