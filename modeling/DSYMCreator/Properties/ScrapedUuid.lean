import DSYMCreator.Script.DumpUuids
import DSYMCreator.Properties.UuidText

/-!
# From the binary's UUID to the symbol file's

The script hands over whatever it found in the dump, one line for each match. Two
matches are more than 32 characters without their hyphens, so the tool takes the
text only if a single one was found, and then it is the UUID of the binary.
-/
namespace DSYMCreator

open Text Python MachO MachoDump Macho

variable {T : AddrType} {binary : Bytes} {m : Image}

theorem extract_eq (him : image? binary = some m) (hm : m.Walkable) :
    extractUuidFromBinary binary =
      if uuidsFound m = [] then .error .calledProcess else .ok (runBash (unlines (uuidsFound m))) := by
  unfold extractUuidFromBinary checkOutput
  rw [scrapeUuids_machoDump him hm]
  split_ifs <;> simp_all

theorem isWordChar_ne {c : UInt8} (h : isWordChar c = true) : isSpace c = false ∧ c ≠ ch '-' := by
  constructor
  · by_contra hspace
    simp only [isSpace, isWordChar, isDigit, ch] at h hspace
    simp [UInt8.le_iff_toNat_le, ← UInt8.toNat_inj] at h hspace
    omega
  · rintro rfl
    exact absurd h (by decide)

theorem trimmed_of_matches {u : Bytes} (hlength : u.length = uuidPattern.length)
    (h : matchesFront uuidPattern u = true) : Trimmed u := by
  have hclass : ∀ q ∈ uuidPattern, ∀ c, q c = true → isSpace c = false := by
    apply forall_uuidPattern
    · exact fun c hc => (isWordChar_ne hc).1
    · intro c hc
      obtain rfl := beq_iff_eq.mp hc
      decide
  have hspace : ∀ c ∈ u, isSpace c = false := by
    intro c hc
    obtain ⟨q, hq, hqc⟩ := exists_class h hlength.le hc
    exact hclass q hq c hqc
  refine ⟨?_, fun c hc => hspace c (List.mem_of_mem_head? hc),
    fun c hc => hspace c (List.mem_of_mem_getLast? hc)⟩
  rintro rfl
  exact absurd hlength (by decide)

theorem length_cleanUuid_match {u : Bytes} (hlength : u.length = uuidPattern.length)
    (h : matchesFront uuidPattern u = true) : (cleanUuid u).length = 32 := by
  have hcount : (uuidPattern.filter fun q => !q (ch '-')).length = 32 := rfl
  rw [← hcount]
  apply length_filter_of_matchesFront _ h hlength
  apply forall_uuidPattern
  · exact fun c hc => decide_eq_true (isWordChar_ne hc).2
  · intro c hc
    obtain rfl := beq_iff_eq.mp hc
    decide

theorem length_cleanUuid_unlines {us : List Bytes} (h : ∀ u ∈ us, (cleanUuid u).length = 32) :
    (cleanUuid (unlines us)).length = 33 * us.length := by
  induction us with
  | nil => rfl
  | cons u us ih =>
    have hrest := ih fun v hv => h v (List.mem_cons_of_mem u hv)
    have hfirst := h u List.mem_cons_self
    have hnewline : [newline].filter (· ≠ ch '-') = [newline] := by decide
    unfold cleanUuid unlines at *
    rw [List.flatMap_cons, List.filter_append, List.filter_append, List.length_append,
      List.length_append, hrest, hfirst, hnewline]
    simp only [List.length_cons, List.length_nil]
    ring

theorem length_cleanUuid_found (hm : m.Walkable) (hne : uuidsFound m ≠ []) :
    (cleanUuid (runBash (unlines (uuidsFound m)))).length + 1 = 33 * (uuidsFound m).length := by
  have hmatch := fun u hu => of_mem_uuidsFound hm (u := u) hu
  have htrim : ∀ u ∈ uuidsFound m, Trimmed u := fun u hu =>
    trimmed_of_matches (hmatch u hu).1 (hmatch u hu).2
  have hclean := length_cleanUuid_unlines fun u hu =>
    length_cleanUuid_match (hmatch u hu).1 (hmatch u hu).2
  rw [← hclean, runBash, strip_unlines htrim hne, unlines_eq hne]
  unfold cleanUuid
  rw [List.filter_append, List.length_append]
  rfl

theorem uuidCommand_uuidText (stack : StackContents) {data : Bytes} (h : data.length = 16) :
    (uuidCommand stack (cleanUuid (uuidText data))).uuid.toList = data := by
  have hclean : cleanUuid (uuidText data) = data.flatMap hexPair := filter_uuidText data
  have hbytes := hexBytes_hexText data
  have hlength : (data.flatMap hexPair).length = 32 := by
    rw [length_hexText, h]
  have hpayload := (spellsUuid_payload stack hlength (isHex_of_hexBytes hbytes)).2
  rw [hclean]
  exact Option.some.inj (hpayload.symm.trans hbytes)

theorem uuids_of_dump {stack : StackContents} {text : StdString} {symbols : List (Symbol T)}
    {off : Addr T} {buf : ByteBuffer} (h : dump stack text symbols off = .ok buf) :
    Fits text symbols ∧ ∃ f, MachO.readFile buf = some f ∧
      f.uuids = [(uuidCommand stack (cleanUuid text)).uuid.toList] := by
  have hfits := ((dump_eq_ok_iff ..).mp h).1
  obtain ⟨buf', f, hdump, hread, hf⟩ := (writesUuid_iff stack text symbols off _).mpr ⟨hfits, rfl⟩
  rw [h] at hdump
  cases hdump
  exact ⟨hfits, f, hread, hf⟩

theorem uuids_length (hm : m.Walkable) {u : Bytes} (hu : u ∈ m.uuids) : u.length = 16 := by
  obtain ⟨off, hoff, rfl⟩ := List.mem_map.mp hu
  obtain ⟨hmem, hkind⟩ := List.mem_filter.mp hoff
  have hinside := (hm.command off hmem).inside
  unfold Image.extent at hinside
  rw [of_decide_eq_true hkind] at hinside
  rw [Image.length_bytes, Image.spans_of_pos (by norm_num)]
  simpa using hinside

theorem uuidsFound_ne_nil (huuid : m.uuids ≠ []) : uuidsFound m ≠ [] := by
  intro hnil
  have hsub := uuids_sublist m
  rw [hnil, List.sublist_nil, List.map_eq_nil_iff] at hsub
  exact huuid hsub

theorem uuid_of_fits (hm : m.Walkable) (huuid : m.uuids ≠ []) (stack : StackContents)
    {symbols : List (Symbol T)} (hfits : Fits (runBash (unlines (uuidsFound m))) symbols) :
    [(uuidCommand stack (cleanUuid (runBash (unlines (uuidsFound m))))).uuid.toList] = m.uuids := by
  have hsub := uuids_sublist m
  have hlength := length_cleanUuid_found hm (uuidsFound_ne_nil huuid)
  have hone : (uuidsFound m).length = 1 := by
    have hclean := hfits.uuid
    omega
  have hpos : 0 < (m.uuids.map uuidText).length := by
    rw [List.length_map]
    exact List.length_pos_iff.mpr huuid
  have hall : m.uuids.map uuidText = uuidsFound m := hsub.eq_of_length_le (by omega)
  obtain ⟨data, hdata⟩ : ∃ data, m.uuids = [data] := by
    rw [← List.length_eq_one_iff, ← hone, ← hall, List.length_map]
  have hsixteen : data.length = 16 := uuids_length hm (by rw [hdata]; exact List.mem_singleton_self _)
  have htext : runBash (unlines (uuidsFound m)) = uuidText data := by
    rw [← hall, hdata, runBash]
    have htrim := trimmed_of_matches (length_uuidText hsixteen) (matchesFront_uuidText hsixteen)
    rw [List.map_singleton, strip_unlines (by simpa using htrim) (List.cons_ne_nil _ _)]
    simp [joinWith]
  rw [hdata, htext, uuidCommand_uuidText stack hsixteen]

theorem fits_found_iff (hm : m.Walkable) (huuid : m.uuids ≠ []) (symbols : List (Symbol T)) :
    Fits (runBash (unlines (uuidsFound m))) symbols ↔ m.uuids.length = 1 ∧
      (∀ s ∈ m.strings, strayUuids s = []) ∧ tablesEnd symbols + 0x1000 ≤ 2 ^ 32 := by
  have hlength := length_cleanUuid_found hm (uuidsFound_ne_nil huuid)
  have hcount := length_uuidsFound m
  have hpos := List.length_pos_iff.mpr huuid
  have hone : (cleanUuid (runBash (unlines (uuidsFound m)))).length = 32 ↔
      m.uuids.length = 1 ∧ (m.strings.flatMap strayUuids).length = 0 := by omega
  rw [← List.flatMap_eq_nil_iff, ← List.length_eq_zero_iff, ← and_assoc, ← hone]
  exact ⟨fun h => ⟨h.uuid, h.tables⟩, fun h => ⟨h.1, h.2⟩⟩

/-- From a binary with a UUID and commands that can be walked the script gets the lines of all
matches, stray ones included. A file is made of this text exactly when the binary has one UUID only,
nothing in its strings looks like another, and the tables fit. The file then has the UUID of the
binary. -/
theorem scrapedUuid_written (stack : StackContents) (symbols : List (Symbol T)) (off : Addr T)
    (him : image? binary = some m) (hm : m.Walkable) (huuid : m.uuids ≠ []) :
    let text := runBash (unlines (uuidsFound m))
    extractUuidFromBinary binary = .ok text ∧
      ((∃ buf, dump stack text symbols off = .ok buf) ↔ m.uuids.length = 1 ∧
        (∀ s ∈ m.strings, strayUuids s = []) ∧ tablesEnd symbols + 0x1000 ≤ 2 ^ 32) ∧
      ∀ buf, dump stack text symbols off = .ok buf →
        ∃ f, MachO.readFile buf = some f ∧ f.uuids = m.uuids := by
  refine ⟨?_, ?_, ?_⟩
  · rw [extract_eq him hm, if_neg (uuidsFound_ne_nil huuid)]
  · rw [← fits_found_iff hm huuid]
    exact ⟨fun ⟨_, h⟩ => (uuids_of_dump h).1, fun h => ⟨_, h.dump_eq stack off⟩⟩
  · intro buf hdump
    obtain ⟨hfits, f, hread, hf⟩ := uuids_of_dump hdump
    exact ⟨f, hread, hf.trans (uuid_of_fits hm huuid stack hfits)⟩

/-- A 32-bit image with a segment, a symbol `_main` with its string, and a UUID. -/
def symbolAndUuid : Bytes :=
  [0xfeedface, 12, 9, 2, 3, 104, 0, 1, 56].flatMap (Binary.leBytes 4) ++
    (ascii "__TEXT" ++ List.replicate 10 0) ++
    [0x4000, 0x1000, 0, 0, 7, 5, 0, 0, 2, 24, 132, 1, 144, 8, 0x1b, 24].flatMap
      (Binary.leBytes 4) ++
    (List.range 16).map UInt8.ofNat ++
    ([1, 0x10e, 0x4000].flatMap (Binary.leBytes 4) ++ (0 :: ascii "_main" ++ [0, 0]))

theorem scrapedUuid_written_symbolAndUuid : ∃ text buf f,
    extractUuidFromBinary symbolAndUuid = .ok text ∧
      dump clearStack text (mixedSymbols .uint32) 0 = .ok buf ∧ MachO.readFile buf = some f ∧
      f.uuids = [(List.range 16).map UInt8.ofNat] := by
  have hdumps : Dumps symbolAndUuid := by decide +kernel
  have himage : image? symbolAndUuid = some ⟨symbolAndUuid, true, false⟩ := rfl
  have hwalk := (hdumps.wellFormed himage).toWalkable
  obtain ⟨hextract, hmade, hwritten⟩ := scrapedUuid_written clearStack (mixedSymbols .uint32) 0
    himage hwalk (by decide +kernel)
  obtain ⟨buf, hbuf⟩ := hmade.mpr ⟨by decide +kernel, by decide +kernel, by decide +kernel⟩
  obtain ⟨f, hread, huuids⟩ := hwritten buf hbuf
  have huuid : (⟨symbolAndUuid, true, false⟩ : Image).uuids =
      [(List.range 16).map UInt8.ofNat] := by decide +kernel
  exact ⟨_, buf, f, hextract, hbuf, hread, huuids.trans huuid⟩

end DSYMCreator
