import DSYMCreator.Script.UuidScrape
import DSYMCreator.Script.DumpExactly

/-!
# What the script finds in a dump

The text of a `LC_UUID` is found as it is, and in every string of the image what
looks like a UUID, if the string has the pattern in it. Nothing else is found, and
matches do not reach from one line of the dump to another.
-/
namespace MachoDump

open Text Python Binary MachO DSYMCreator

/-- What the script finds in the lines of a load command. -/
def uuidsAt (m : Image) (off : ℕ) : List Bytes :=
  if m.kindAt off = .uuid then [uuidText (m.bytes (off + 8) 16)]
  else (m.stringsAt off).flatMap strayUuids

/-- Everything that the script finds, in order. -/
def uuidsFound (m : Image) : List Bytes := m.commands.flatMap (uuidsAt m)

variable {m : Image} {off : ℕ}

theorem showsUuids_fields (m : Image) (off : ℕ) (templates : List String)
    (h : templates.all uuidFree = true := by decide +kernel) :
    ShowsUuids [] (fieldLines m off templates) := by
  induction templates generalizing off with
  | nil => exact showsUuids_nil
  | cons t templates ih =>
    rw [List.all_cons, Bool.and_eq_true] at h
    exact (showsUuids_nat _ h.1).append (ih _ h.2)

theorem showsUuids_relocation (m : Image) (off i : ℕ) : ShowsUuids [] (relocationLines m off i) :=
  (showsUuids_nat i).append ((showsUuids_hex _).append (showsUuids_hex _))

theorem showsUuids_quiet {n : ℕ} {lines : ℕ → List Bytes} (h : ∀ i, ShowsUuids [] (lines i)) :
    ShowsUuids [] ((List.range n).flatMap lines) := by
  have hloop : ShowsUuids ((List.range n).flatMap fun _ => []) ((List.range n).flatMap lines) :=
    ShowsUuids.flatMap fun i _ => h i
  rwa [List.flatMap_eq_nil_iff.mpr fun _ _ => rfl] at hloop

theorem showsUuids_section (m : Image) (wide : Bool) (off i : ℕ) :
    ShowsUuids ((m.sectionNames off).flatMap strayUuids) (sectionLines m wide off i) := by
  have hrange : ShowsUuids [] (sectionRangeLines m wide off) := by
    cases wide with
    | false => exact (showsUuids_nat _).append (showsUuids_nat _)
    | true => exact (showsUuids_nat _).append (showsUuids_nat _)
  have hreserved : ShowsUuids [] (if wide then
      fieldLines m (Image.sectionTail wide off + 28) ["    ('reserved3', %r)"] else []) := by
    cases wide with
    | false => exact showsUuids_nil
    | true => exact showsUuids_fields m _ _
  have hnames : ShowsUuids ((m.sectionNames off).flatMap strayUuids)
      [natLine "    # Section %r" i, strLine "   (('section_name', %r)" (m.bytes off 16),
        strLine "    ('segment_name', %r)" (m.bytes (off + 16) 16)] := by
    have h := (showsUuids_nat (t := "    # Section %r") i).append
      ((showsUuids_str (t := "   (('section_name', %r)") (m.bytes off 16)).append
        (showsUuids_str (t := "    ('segment_name', %r)") (m.bytes (off + 16) 16)))
    simpa [Image.sectionNames] using h
  have htext : ShowsUuids [] [ascii "   ),", ascii "  ('_relocations', ["] :=
    (showsUuids_text).append (showsUuids_text)
  have h := hnames.append <| hrange.append <|
    (showsUuids_fields m (Image.sectionTail wide off) ["    ('offset', %r)",
      "    ('alignment', %r)", "    ('reloc_offset', %r)", "    ('num_reloc', %r)"]).append <|
    (showsUuids_hex (t := "    ('flags', %#x)") (m.u32 (Image.sectionTail wide off + 16))).append <|
    (showsUuids_fields m (Image.sectionTail wide off + 20)
      ["    ('reserved1', %r)", "    ('reserved2', %r)"]).append <|
    hreserved.append <| htext.append <|
    (showsUuids_quiet (n := m.relocCount wide off) fun j =>
      showsUuids_relocation m (m.relocOffset wide off + j * 8) j).append <|
    showsUuids_text (t := "  ])")
  simpa [sectionLines] using h

theorem showsUuids_segment (m : Image) (wide : Bool) (off : ℕ) :
    ShowsUuids (strayUuids (m.bytes (off + 8) 16) ++
      (m.segmentSectionNames wide off).flatMap strayUuids) (segmentLines m wide off) := by
  have hrange : ShowsUuids [] (segmentRangeLines m wide off) := by
    cases wide with
    | false => exact showsUuids_fields m _ _
    | true =>
      exact (showsUuids_nat _).append <| (showsUuids_nat _).append <|
        (showsUuids_nat _).append (showsUuids_nat _)
  have hsections : ShowsUuids ((m.segmentSectionNames wide off).flatMap strayUuids)
      ((List.range (m.sectionCount wide off)).flatMap fun i =>
        sectionLines m wide (Image.sectionOffset wide off i) i) := by
    unfold Image.segmentSectionNames
    rw [List.flatMap_assoc]
    exact ShowsUuids.flatMap fun i _ => showsUuids_section m wide _ i
  have h := (showsUuids_str (t := "  ('segment_name', %r)") (m.bytes (off + 8) 16)).append <|
    hrange.append <|
    (showsUuids_fields m (off + (Image.segmentSize wide - 16)) ["  ('maxprot', %r)",
      "  ('initprot', %r)", "  ('num_sections', %r)", "  ('flags', %r)"]).append <|
    (showsUuids_text (t := "  ('sections', [")).append <| hsections.append <|
    showsUuids_text (t := "  ])")
  simpa [segmentLines] using h

theorem showsUuids_symbol (m : Image) (table : Bytes) (off i : ℕ) :
    ShowsUuids (strayUuids (Image.nameAt table (m.u32 off))) (symbolLines m table off i) := by
  have h := (showsUuids_nat (t := "    # Symbol %r") i).append <|
    (showsUuids_nat (t := "   (('n_strx', %r)") (m.u32 off)).append <|
    (showsUuids_hex (t := "    ('n_type', %#x)") (m.number (off + 4) 1)).append <|
    (showsUuids_nat (t := "    ('n_sect', %r)") (m.number (off + 5) 1)).append <|
    (showsUuids_nat (t := "    ('n_desc', %r)") (m.number (off + 6) 2)).append <|
    (showsUuids_nat (t := "    ('n_value', %r)") (m.number (off + 8) (m.nlistSize - 8))).append <|
    (showsUuids_str (t := "    ('_string', %r)") (Image.nameAt table (m.u32 off))).append <|
    showsUuids_text (t := "   ),")
  simpa [symbolLines] using h

theorem showsUuids_symtab (m : Image) (off : ℕ) :
    ShowsUuids (strayUuids (m.stringTable off) ++ (m.symbolNames off).flatMap strayUuids)
      (symtabLines m off) := by
  have hsymbols : ShowsUuids ((m.symbolNames off).flatMap strayUuids)
      ((List.range (m.symbolCount off)).flatMap fun i =>
        symbolLines m (m.stringTable off) (m.symbolOffset off i) i) := by
    unfold Image.symbolNames
    rw [List.flatMap_map]
    exact ShowsUuids.flatMap fun i _ => showsUuids_symbol m _ _ i
  have h := (showsUuids_fields m (off + 8) ["  ('symoff', %r)", "  ('nsyms', %r)",
      "  ('stroff', %r)", "  ('strsize', %r)"]).append <|
    (showsUuids_str (t := "  ('_string_data', %r)") (m.stringTable off)).append <|
    (showsUuids_text (t := "  ('_symbols', [")).append <| hsymbols.append <|
    showsUuids_text (t := "  ])")
  simpa [symtabLines] using h

theorem showsUuids_dysymtab (m : Image) (off : ℕ) : ShowsUuids [] (dysymtabLines m off) := by
  have hloop : ShowsUuids [] ((List.range (m.u32 (off + 60))).flatMap fun i =>
      indirectSymbolLines m (m.u32 (off + 56) + i * 4) i) :=
    showsUuids_quiet fun i => (showsUuids_nat i).append (showsUuids_hex _)
  exact (((showsUuids_fields m (off + 8) _).append showsUuids_text).append hloop).append
    showsUuids_text

/-! ## Commands -/

/-- The line of a `LC_UUID` has the pattern in front of its text. -/
theorem showsUuids_uuid {data : Bytes} (h : data.length = 16) :
    ShowsUuids [uuidText data] [fill "  ('uuid', %s)" (uuidText data)] := by
  have hdelim : delimited "  ('uuid', %s)" = true := by decide +kernel
  have hfront : selects [ascii "uuid"] (templateFront "  ('uuid', %s)") = true := by decide +kernel
  have hnone : patternMatches uuidPattern (templateFront "  ('uuid', %s)") = [] := by decide +kernel
  have hnone' : patternMatches uuidPattern (templateBack "  ('uuid', %s)") = [] := by decide +kernel
  have hne : uuidText data ≠ [] := by
    rw [← List.length_pos_iff, length_uuidText h]
    decide
  have hself := patternMatches_self hne (length_uuidText h) (matchesFront_uuidText h)
  obtain ⟨hs, hm⟩ := cut_uuid hdelim (uuidText data)
  have hline := showsUuids_line
    (newline_notMem_fill hdelim fun hmem => (plain_uuidText data _ hmem).1 rfl)
  rwa [lineUuids, hs, hm, hfront, hnone, hnone', hself, Bool.true_or, Bool.true_or, if_pos rfl,
    List.nil_append, List.append_nil] at hline

theorem stringsAt_eq (m : Image) (off : ℕ) : m.stringsAt off = match m.kindAt off with
    | .segment wide => m.bytes (off + 8) 16 :: m.segmentSectionNames wide off
    | .symtab => m.stringTable off :: m.symbolNames off
    | .dysymtab => []
    | .uuid => []
    | .other => [] := by
  unfold Image.stringsAt Image.kindAt commandKind
  split_ifs <;> first | rfl | omega

theorem showsUuids_body (hfits : m.CommandFits off) :
    ShowsUuids (uuidsAt m off) (bodyLines m off) := by
  unfold uuidsAt bodyLines
  rw [stringsAt_eq]
  have hinside := hfits.inside
  unfold Image.extent at hinside
  cases hkind : m.kindAt off with
  | segment wide =>
    have h := showsUuids_segment m wide off
    simpa using h
  | symtab =>
    have h := showsUuids_symtab m off
    simpa using h
  | dysymtab =>
    have h := showsUuids_dysymtab m off
    simpa using h
  | uuid =>
    rw [hkind] at hinside
    have hlength : (m.bytes (off + 8) 16).length = 16 := by
      rw [Image.length_bytes, Image.spans_of_pos (by norm_num)]
      simpa using hinside
    simpa using showsUuids_uuid hlength
  | other => simpa using showsUuids_nil

theorem showsUuids_command (hfits : m.CommandFits off) (i : ℕ) :
    ShowsUuids (uuidsAt m off) (commandLines m off i) := by
  have h := (showsUuids_nat (t := "  # Load Command %r") i).append <|
    ((showsUuids_fields m off [" (('command', %r)", "  ('size', %r)"]).append
      (showsUuids_body hfits)).append (showsUuids_text (t := " ),"))
  rwa [List.append_nil] at h

theorem showsUuids_header (m : Image) : ShowsUuids [] (headerLines m) := by
  have hreserved : ShowsUuids [] (if m.is64Bit then fieldLines m 28 ["('reserved', %r)"] else []) := by
    cases m.is64Bit with
    | false => exact showsUuids_nil
    | true => exact showsUuids_fields m 28 _
  exact (((showsUuids_fields m 4 _).append (showsUuids_nat _)).append
    (showsUuids_fields m 20 _)).append hreserved

theorem showsUuids_document (hm : m.Walkable) : ShowsUuids (uuidsFound m) (document m) := by
  have hcommands : ShowsUuids (uuidsFound m)
      (m.commands.zipIdx.flatMap fun c => commandLines m c.1 c.2) := by
    have h : ShowsUuids (m.commands.zipIdx.flatMap fun c => uuidsAt m c.1)
        (m.commands.zipIdx.flatMap fun c => commandLines m c.1 c.2) :=
      ShowsUuids.flatMap fun c hc =>
        showsUuids_command (hm.command c.1 (List.fst_mem_of_mem_zipIdx hc)) c.2
    have hfirst : m.commands.zipIdx.flatMap (fun c => uuidsAt m c.1) = uuidsFound m := by
      have hmap := List.flatMap_map Prod.fst (uuidsAt m) m.commands.zipIdx
      rw [uuidsFound, ← hmap, List.zipIdx_map_fst]
    rwa [hfirst] at h
  have h := (((showsUuids_header m).append (showsUuids_text (t := "('load_commands', ["))).append
    hcommands).append (showsUuids_text (t := "])"))
  rwa [List.append_nil] at h

theorem length_uuidsFound (m : Image) :
    (uuidsFound m).length = m.uuids.length + (m.strings.flatMap strayUuids).length := by
  unfold uuidsFound Image.uuids Image.strings
  rw [List.length_map]
  induction m.commands with
  | nil => rfl
  | cons off offs ih =>
    rw [List.flatMap_cons, List.length_append, ih, List.flatMap_cons, List.flatMap_append,
      List.length_append, List.filter_cons, uuidsAt]
    by_cases hkind : m.kindAt off = .uuid
    · simp [hkind, stringsAt_eq]
      omega
    · simp [hkind]
      omega

theorem uuids_sublist (m : Image) : (m.uuids.map uuidText).Sublist (uuidsFound m) := by
  unfold uuidsFound Image.uuids
  induction m.commands with
  | nil => exact List.Sublist.slnil
  | cons off offs ih =>
    rw [List.flatMap_cons, List.filter_cons, uuidsAt]
    by_cases hkind : m.kindAt off = .uuid
    · simpa [hkind] using ih
    · simp only [hkind, decide_false, Bool.false_eq_true, if_false]
      exact ih.trans (List.sublist_append_right _ _)

theorem of_mem_uuidsFound (hm : m.Walkable) {u : Bytes} (hu : u ∈ uuidsFound m) :
    u.length = uuidPattern.length ∧ matchesFront uuidPattern u = true := by
  rw [← (showsUuids_document hm).2] at hu
  obtain ⟨l, -, hl⟩ := List.mem_flatMap.mp hu
  unfold lineUuids at hl
  split_ifs at hl
  · exact of_mem_matchesFrom hl
  · cases hl

/-- What the script scrapes from a binary whose commands can be walked. -/
theorem scrapeUuids_machoDump {binary : Bytes} (him : image? binary = some m) (hm : m.Walkable) :
    scrapeUuids (machoDump binary) = uuidsFound m := by
  obtain ⟨hlines, huuids⟩ := showsUuids_document hm
  rw [machoDump_of_walkable him hm, scrapeUuids_unlines hlines, huuids]

end MachoDump
