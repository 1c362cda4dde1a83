import DSYMCreator.Formats.MachOReaders
import DSYMCreator.Properties.LoadCommands
import DSYMCreator.Properties.SymbolRoundTrip
import DSYMCreator.Script.DumpExactly
import DSYMCreator.Tool.Main

/-!
# The dump of a symbol file

`macho-dump.py` walks over a file of the tool to its end and shows all of it. Then it
compares the way it went with `sizeofcmds`, and raises.
-/
namespace DSYMCreator.Macho

open Binary StringTable Text MachO MachoDump

variable {T : AddrType} {stack : StackContents} {uuid : StdString} {symbols : List (Symbol T)}
  {off : Addr T}

theorem drop_strings (h : Fits uuid symbols) {s : Symbol T} (hs : s ∈ symbols) :
    ∃ after, (tables symbols).strings.drop (recordView symbols s).nStrx = s.name ++ 0 :: after := by
  obtain ⟨after, hdrop⟩ := (nameOffset_occursAt (List.mem_map_of_mem hs) h.names_lt).drop_eq
  refine ⟨after, ?_⟩
  rw [List.append_assoc] at hdrop
  exact hdrop

theorem slice_symtabStrings (h : Fits uuid symbols) :
    slice (image stack uuid symbols off) (symtabView stack symbols).stroff
      (symtabView stack symbols).strsize = (tables symbols).strings := by
  rw [symtabView_eq h.tables]
  exact (image_strings h).slice_eq

theorem symtab_inside (h : Fits uuid symbols) : (symtabView stack symbols).Inside
    (image stack uuid symbols off) T.is64 (symbols.map (recordView symbols)) where
  symoff := by
    have hbound : 0x1000 + (tables symbols).symbols.length ≤
        (image stack uuid symbols off).length := (image_symbols h).bound
    rw [symtabView_eq h.tables]
    simp only
    omega
  read := readSymbols_image h
  strings := by
    rw [symtabView_eq h.tables]
    exact (image_strings h).bound
  names := by
    intro n hn
    obtain ⟨s, hs, rfl⟩ := List.mem_map.mp hn
    obtain ⟨after, hdrop⟩ := drop_strings h hs
    rw [slice_symtabStrings h, hdrop]
    simp

theorem bodies_inside (h : Fits uuid symbols) :
    ∀ c ∈ (fileView stack uuid symbols off).commands,
      BodyInside (image stack uuid symbols off) T.is64 c.body := by
  have htext : ∀ s ∈ (textView (T := T) stack).sections, s.nreloc = 0 := by
    rw [textView_sections]
    simp only [List.mem_singleton]
    rintro s rfl
    rfl
  have hdwarf : ∀ s ∈ (dwarfView stack symbols off).sections, s.nreloc = 0 := by
    rw [dwarfView_sections]
    simp only [List.mem_cons, List.not_mem_nil, or_false]
    rintro s (rfl | rfl | rfl | rfl) <;> rfl
  intro c hc
  simp only [fileView, List.mem_cons, List.not_mem_nil, or_false] at hc
  rcases hc with rfl | rfl | rfl | rfl
  · trivial
  · exact ⟨_, symtab_inside h⟩
  · exact fun s hs => .inl (htext s hs)
  · exact fun s hs => .inl (hdwarf s hs)

theorem header_is64 : (fileView stack uuid symbols off).header.is64 = T.is64 := machHeader_is64

theorem walkable_image (h : Fits uuid symbols) :
    (lsbImage (image stack uuid symbols off) T.is64).Walkable := by
  have hread : MachO.readFile (image stack uuid symbols off) =
      some (fileView stack uuid symbols off) := readFile_image
  have hwalk := walkable_of_readFile hread
  rw [header_is64] at hwalk
  refine hwalk ?_ (fun c hc => ⟨fileView_extents c hc, bodies_inside h c hc⟩) ?_
  · have hbound : 0x1000 + (tables symbols).symbols.length ≤
        (image stack uuid symbols off).length := (image_symbols h).bound
    have hsize : (fileView stack uuid symbols off).header.size = 28 + T.only64 4 := machHeader_size
    have hsmall : T.only64 4 ≤ 4 := by cases T <;> decide
    omega
  · rw [fileView_symtabs]
    rfl

theorem takeWhile_terminator (s after : Bytes) :
    (s ++ 0 :: after).takeWhile (· ≠ 0) = s.takeWhile (· ≠ 0) := by
  induction s with
  | nil => rfl
  | cons b s ih => rw [List.cons_append, List.takeWhile_cons, List.takeWhile_cons, ih]

theorem symbolNames_image (h : Fits uuid symbols) :
    (lsbImage (image stack uuid symbols off) T.is64).symtabs.flatMap
        (lsbImage (image stack uuid symbols off) T.is64).symbolNames =
      symbols.map fun s => cStr s.name := by
  have hread : MachO.readFile (image stack uuid symbols off) =
      some (fileView stack uuid symbols off) := readFile_image
  have hagree := (readers_agree hread).2.2.2
  rw [header_is64] at hagree
  have htables := symtabs_agree hagree
  change List.Forall₂ _ (lsbImage (image stack uuid symbols off) T.is64).symtabs
    [symtabView stack symbols] at htables
  obtain ⟨table, tables', htable, hnone, heq⟩ := List.forall₂_cons_right_iff.mp htables
  rw [List.forall₂_nil_right_iff.mp hnone] at heq
  rw [heq, List.flatMap_singleton, symbolNames_of_agrees htable (symtab_inside h),
    slice_symtabStrings h, List.map_map]
  apply List.map_congr_left
  intro s hs
  obtain ⟨after, hdrop⟩ := drop_strings h hs
  rw [Function.comp_apply, Image.nameAt, hdrop]
  exact takeWhile_terminator s.name after

/-- The dump shows the whole symbol file, with all names, and then always raises: the commands are
longer than `sizeofcmds` by those of `__DWARF`. -/
theorem symbolFile_dumped {buf : ByteBuffer} (hdump : dump stack uuid symbols off = .ok buf) :
    ∃ m r, image? buf = some m ∧ m.Walkable ∧
      dumpmacho (.ofFile buf) = .error .valueError r ∧ r.printed = document m ∧
      m.commandsSize = m.u32 20 + segmentExtent T 4 ∧
      m.uuids = [(uuidCommand stack (cleanUuid uuid)).uuid.toList] ∧
      m.symtabs.flatMap m.symbolNames = symbols.map fun s => cStr s.name := by
  obtain ⟨hfits, hbuf⟩ := (dump_eq_ok_iff ..).mp hdump
  rw [hbuf]
  have hread : MachO.readFile (image stack uuid symbols off) =
      some (fileView stack uuid symbols off) := readFile_image
  obtain ⟨himage, -, hsizeofcmds, hagree⟩ := readers_agree hread
  rw [header_is64] at himage hsizeofcmds hagree
  have hgap := fileView_gap stack uuid symbols off
  have hpos := segmentExtent_pos T 4
  have hcommands : (lsbImage (image stack uuid symbols off) T.is64).commandsSize =
      (fileView stack uuid symbols off).commandsSize := by
    unfold Image.commandsSize MachO.File.commandsSize
    rw [cmdsizes_agree hagree]
  have hwalkable : (lsbImage (image stack uuid symbols off) T.is64).Walkable :=
    walkable_image hfits
  have hrun := dumpmacho_of_walkable himage hwalkable
  rw [if_neg (by omega)] at hrun
  exact ⟨_, _, himage, hwalkable, hrun, rfl, by omega, uuids_agree hagree, symbolNames_image hfits⟩

theorem symbolFile_dumped_mixed :
    ∃ buf m r, dump clearStack usageUuid (mixedSymbols .uint32) 0x40000 = .ok buf ∧
      image? buf = some m ∧ dumpmacho (.ofFile buf) = .error .valueError r ∧
      r.printed = document m ∧ m.symtabs.flatMap m.symbolNames =
        [ascii "main", [], ascii "-[A b]", ascii "main", []] := by
  have hdump := (fits_mixedSymbols .uint32).dump_eq clearStack 0x40000
  obtain ⟨m, r, himage, -, hrun, hprinted, -, -, hnames⟩ := symbolFile_dumped hdump
  exact ⟨_, m, r, hdump, himage, hrun, hprinted, hnames⟩

end DSYMCreator.Macho
