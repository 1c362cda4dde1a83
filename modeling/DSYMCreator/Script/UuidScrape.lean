import DSYMCreator.Script.DumpDocument
import DSYMCreator.Script.DumpLines
import DSYMCreator.Text.PatternMatches
import DSYMCreator.Text.HexBytes

/-!
# Scraping the UUID from the dump

The script keeps the lines of the dump that have `uuid` somewhere in them and takes
everything from these lines that looks like a UUID. Such a line belongs to a
`LC_UUID`, or it shows a string of the binary.
-/
namespace DSYMCreator

open Text Python

/-- How a function of the script ends without a result. -/
inductive ScriptError
  | python (e : Error)
  | io
  | struct
  | calledProcess
  | exit (code : ℕ)
  deriving DecidableEq, Repr

/-- `subprocess.check_output(..).strip()` of a command that ends with this status. -/
def checkOutput (status : ℕ) (output : Bytes) : Except ScriptError Bytes :=
  if status = 0 then .ok (runBash output) else .error .calledProcess

/-- `\w` -/
def isWordChar (c : UInt8) : Bool :=
  isDigit c || (65 ≤ c && c ≤ 90) || (97 ≤ c && c ≤ 122) || c == ch '_'

def isHyphen (c : UInt8) : Bool := c == ch '-'

/-- `\w{8}-\w{4}-\w{4}-\w{4}-\w{12}` -/
def uuidPattern : Pattern :=
  List.replicate 8 isWordChar ++ [isHyphen] ++ List.replicate 4 isWordChar ++ [isHyphen] ++
    List.replicate 4 isWordChar ++ [isHyphen] ++ List.replicate 4 isWordChar ++ [isHyphen] ++
    List.replicate 12 isWordChar

/-- `grep uuid | egrep -o '..'`. -/
def scrapeUuids (output : Bytes) : List Bytes :=
  (egrep [ascii "uuid"] (textLines output)).flatMap (patternMatches uuidPattern)

/-- The function, for a binary with these bytes; the status is that of the last command, which
fails without a match. -/
def extractUuidFromBinary (binary : Bytes) : Except ScriptError Bytes :=
  let found := scrapeUuids (MachoDump.machoDump binary)
  checkOutput (if found = [] then 1 else 0) (unlines found)

/-! ## The text of a UUID -/

theorem hexPair_eq {b c : UInt8} (h : c ∈ hexPair b) : ∃ d < 16, c = hexDigit d := by
  have hb := b.toNat_lt
  rcases List.mem_pair.mp h with rfl | rfl
  · exact ⟨_, by omega, rfl⟩
  · exact ⟨_, by omega, rfl⟩

theorem mem_hexText {bs : Bytes} {c : UInt8} (h : c ∈ bs.flatMap hexPair) :
    isWordChar c = true ∧ c ≠ ch '-' := by
  obtain ⟨b, -, hb⟩ := List.mem_flatMap.mp h
  obtain ⟨d, hd, rfl⟩ := hexPair_eq hb
  interval_cases d <;> decide

theorem length_hexText (bs : Bytes) : (bs.flatMap hexPair).length = 2 * bs.length := by
  simp [List.length_flatMap, hexPair, Nat.mul_comm]

theorem hexBytes_hexText (bs : Bytes) : hexBytes (bs.flatMap hexPair) = some bs := by
  induction bs with
  | nil => rfl
  | cons b bs ih =>
    have hb := b.toNat_lt
    refine hexBytes_cons.mpr ⟨b.toNat / 16, b.toNat % 16, bs, hexVal_hexDigit (by omega),
      hexVal_hexDigit (by omega), ih, ?_⟩
    rw [Nat.div_add_mod, UInt8.ofNat_toNat]

theorem uuidText_eq (bs : Bytes) : uuidText bs =
    (bs.flatMap hexPair).take 8 ++ ([ch '-'] ++ (((bs.flatMap hexPair).drop 8).take 4 ++
      ([ch '-'] ++ (((bs.flatMap hexPair).drop 12).take 4 ++ ([ch '-'] ++
      (((bs.flatMap hexPair).drop 16).take 4 ++ ([ch '-'] ++ (bs.flatMap hexPair).drop 20))))))) := by
  simp [uuidText, joinWith]

theorem matchesFront_hyphen (p : Pattern) (ys : Bytes) :
    matchesFront ([isHyphen] ++ p) ([ch '-'] ++ ys) = matchesFront p ys := rfl

theorem matchesFront_uuidText {bs : Bytes} (h : bs.length = 16) :
    matchesFront uuidPattern (uuidText bs) = true := by
  have hlength := length_hexText bs
  have hword (c : UInt8) (hc : c ∈ bs.flatMap hexPair) : isWordChar c = true := (mem_hexText hc).1
  have hgroup (k n : ℕ) (hn : k + n ≤ 32) (p : Pattern) (ys : Bytes) :
      matchesFront (List.replicate n isWordChar ++ p)
        (((bs.flatMap hexPair).drop k).take n ++ ys) = matchesFront p ys := by
    apply matchesFront_replicate
    · rw [List.length_take, List.length_drop]
      omega
    · exact fun c hc => hword c (List.mem_of_mem_drop (List.mem_of_mem_take hc))
  have hlast : matchesFront (List.replicate 12 isWordChar) ((bs.flatMap hexPair).drop 20) = true := by
    have h := hgroup 20 12 (by norm_num) [] []
    rw [List.append_nil, List.append_nil, List.take_of_length_le] at h
    · exact h
    · rw [List.length_drop]
      omega
  have hfirst := hgroup 0 8 (by norm_num)
  rw [List.drop_zero] at hfirst
  rw [uuidText_eq]
  unfold uuidPattern
  simp only [List.append_assoc]
  rw [hfirst, matchesFront_hyphen, hgroup 8 4 (by norm_num), matchesFront_hyphen,
    hgroup 12 4 (by norm_num), matchesFront_hyphen, hgroup 16 4 (by norm_num), matchesFront_hyphen,
    hlast]

theorem length_uuidText {bs : Bytes} (h : bs.length = 16) :
    (uuidText bs).length = uuidPattern.length := by
  have hlength := length_hexText bs
  have hpattern : uuidPattern.length = 36 := rfl
  rw [uuidText_eq, hpattern]
  simp only [List.length_append, List.length_take, List.length_drop, List.length_singleton]
  omega

theorem filter_uuidText (bs : Bytes) : (uuidText bs).filter (· ≠ ch '-') = bs.flatMap hexPair := by
  have hfilter (xs : Bytes) (h : ∀ c ∈ xs, c ∈ bs.flatMap hexPair) :
      xs.filter (· ≠ ch '-') = xs := by
    rw [List.filter_eq_self]
    exact fun c hc => decide_eq_true (mem_hexText (h c hc)).2
  have hhyphen : [ch '-'].filter (· ≠ ch '-') = [] := by simp
  rw [uuidText_eq]
  simp only [List.filter_append, hhyphen, List.nil_append]
  rw [hfilter _ fun c hc => List.mem_of_mem_take hc,
    hfilter _ fun c hc => List.mem_of_mem_drop (List.mem_of_mem_take hc),
    hfilter _ fun c hc => List.mem_of_mem_drop (List.mem_of_mem_take hc),
    hfilter _ fun c hc => List.mem_of_mem_drop (List.mem_of_mem_take hc),
    hfilter _ fun c hc => List.mem_of_mem_drop hc]
  have hjoin (k n : ℕ) : ((bs.flatMap hexPair).drop k).take n ++ (bs.flatMap hexPair).drop (k + n) =
      (bs.flatMap hexPair).drop k := by
    rw [← List.drop_drop, List.take_append_drop]
  rw [hjoin 16 4, hjoin 12 4, hjoin 8 4, List.take_append_drop]

end DSYMCreator

namespace MachoDump

open Text Python MachO DSYMCreator

/-- What is found in one line. -/
def lineUuids (l : Bytes) : List Bytes :=
  if selects [ascii "uuid"] l then patternMatches uuidPattern l else []

theorem scrapeUuids_unlines {lines : List Bytes} (h : ∀ l ∈ lines, newline ∉ l) :
    scrapeUuids (unlines lines) = lines.flatMap lineUuids := by
  unfold scrapeUuids
  rw [textLines_unlines h]
  clear h
  induction lines with
  | nil => rfl
  | cons l lines ih =>
    rw [List.flatMap_cons, ← ih]
    unfold egrep lineUuids
    cases hl : selects [ascii "uuid"] l with
    | false => simp [hl]
    | true => simp [hl]

/-- What is found in a string of the file. -/
def strayUuids (s : Bytes) : List Bytes := lineUuids (reprStr s)

/-- The lines are lines, and this is found in them. -/
def ShowsUuids (uuids lines : List Bytes) : Prop :=
  (∀ l ∈ lines, newline ∉ l) ∧ lines.flatMap lineUuids = uuids

variable {us vs ls ks : List Bytes} {t : String}

theorem showsUuids_nil : ShowsUuids [] [] := ⟨by simp, rfl⟩

theorem ShowsUuids.append (hl : ShowsUuids us ls) (hk : ShowsUuids vs ks) :
    ShowsUuids (us ++ vs) (ls ++ ks) := by
  refine ⟨fun l hmem => ?_, ?_⟩
  · rcases List.mem_append.mp hmem with hmem | hmem
    · exact hl.1 l hmem
    · exact hk.1 l hmem
  · rw [List.flatMap_append, hl.2, hk.2]

theorem ShowsUuids.cons {l : Bytes} (hl : ShowsUuids us [l]) (hk : ShowsUuids vs ks) :
    ShowsUuids (us ++ vs) (l :: ks) := hl.append hk

theorem ShowsUuids.flatMap {α : Type} {xs : List α} {uuids lines : α → List Bytes}
    (h : ∀ x ∈ xs, ShowsUuids (uuids x) (lines x)) :
    ShowsUuids (xs.flatMap uuids) (xs.flatMap lines) := by
  induction xs with
  | nil => exact showsUuids_nil
  | cons x xs ih =>
    rw [List.flatMap_cons, List.flatMap_cons]
    exact (h x List.mem_cons_self).append (ih fun y hy => h y (List.mem_cons_of_mem x hy))

/-! ## Single lines -/

/-- Neither side of the conversion has the pattern or a match in it. -/
def uuidFree (template : String) : Bool :=
  delimited template && !selects [ascii "uuid"] (templateFront template) &&
    !selects [ascii "uuid"] (templateBack template) &&
    (patternMatches uuidPattern (templateFront template)).isEmpty &&
    (patternMatches uuidPattern (templateBack template)).isEmpty

/-- A line without an argument that is dropped. -/
def uuidFreeText (text : String) : Bool :=
  !(ascii text).contains newline && !selects [ascii "uuid"] (ascii text)

theorem uuidPattern_ne : uuidPattern ≠ [] := by simp [uuidPattern]

theorem forall_uuidPattern {q : (UInt8 → Bool) → Prop} (hword : q isWordChar) (hhyphen : q isHyphen) :
    ∀ r ∈ uuidPattern, q r := by
  intro r hr
  simp only [uuidPattern, List.mem_append, List.mem_replicate, List.mem_singleton] at hr
  rcases hr with ((((((((⟨-, rfl⟩ | rfl) | ⟨-, rfl⟩) | rfl) | ⟨-, rfl⟩) | rfl) | ⟨-, rfl⟩) | rfl) |
    ⟨-, rfl⟩)
  all_goals first | exact hword | exact hhyphen

/-- A byte that is not in the pattern, nor in a match. -/
def UuidBorder (c : UInt8) : Prop := (∀ p ∈ [ascii "uuid"], c ∉ p) ∧ ∀ q ∈ uuidPattern, q c = false

theorem uuidBorder_blank : UuidBorder blank := by
  refine ⟨?_, forall_uuidPattern rfl rfl⟩
  simp only [List.mem_singleton, forall_eq]
  decide

theorem uuidBorder_bracket : UuidBorder (ch ')') := by
  refine ⟨?_, forall_uuidPattern rfl rfl⟩
  simp only [List.mem_singleton, forall_eq]
  decide

theorem UuidBorder.cut_behind {c : UInt8} (h : UuidBorder c) {xs : Bytes}
    (hxs : xs.getLast? = some c) (ys : Bytes) :
    selects [ascii "uuid"] (xs ++ ys) = (selects [ascii "uuid"] xs || selects [ascii "uuid"] ys) ∧
      patternMatches uuidPattern (xs ++ ys) =
        patternMatches uuidPattern xs ++ patternMatches uuidPattern ys := by
  obtain ⟨front, rfl⟩ := List.getLast?_eq_some_iff.mp hxs
  have hcut := selects_append_cons h.1 front
  have hmatches := patternMatches_append_cons uuidPattern_ne h.2 front
  have hnil : selects [ascii "uuid"] [] = false := by decide
  have hnone : patternMatches uuidPattern [] = [] := rfl
  rw [List.append_assoc, List.singleton_append, hcut ys, hcut [], hmatches ys, hmatches [], hnil,
    hnone, Bool.or_false, List.append_nil]
  exact ⟨rfl, rfl⟩

theorem UuidBorder.cut_before {c : UInt8} (h : UuidBorder c) {ys : Bytes}
    (hys : ∀ d ∈ ys.head?, d = c) (xs : Bytes) :
    selects [ascii "uuid"] (xs ++ ys) = (selects [ascii "uuid"] xs || selects [ascii "uuid"] ys) ∧
      patternMatches uuidPattern (xs ++ ys) =
        patternMatches uuidPattern xs ++ patternMatches uuidPattern ys := by
  have hnil : selects [ascii "uuid"] [] = false := by decide
  have hnone : patternMatches uuidPattern [] = [] := rfl
  cases ys with
  | nil => rw [List.append_nil, hnil, hnone, Bool.or_false, List.append_nil]; exact ⟨rfl, rfl⟩
  | cons d ys =>
    obtain rfl := hys d rfl
    have hcut := selects_append_cons h.1
    have hmatches := patternMatches_append_cons uuidPattern_ne h.2
    have hcut₀ := hcut [] ys
    have hmatches₀ := hmatches [] ys
    rw [List.nil_append, hnil, Bool.false_or] at hcut₀
    rw [List.nil_append, hnone, List.nil_append] at hmatches₀
    rw [hcut xs ys, hmatches xs ys, hcut₀, hmatches₀]
    exact ⟨rfl, rfl⟩

/-- Both sides of the argument are searched apart. -/
theorem cut_uuid (h : delimited t = true) (arg : Bytes) :
    selects [ascii "uuid"] (fill t arg) =
        (selects [ascii "uuid"] (templateFront t) || selects [ascii "uuid"] arg ||
          selects [ascii "uuid"] (templateBack t)) ∧
      patternMatches uuidPattern (fill t arg) =
        patternMatches uuidPattern (templateFront t) ++ patternMatches uuidPattern arg ++
          patternMatches uuidPattern (templateBack t) := by
  simp only [delimited, Bool.and_eq_true, beq_iff_eq, Bool.not_eq_true', Option.all_eq_true] at h
  obtain ⟨⟨⟨⟨hfront, hback⟩, -⟩, -⟩, -⟩ := h
  obtain ⟨hs, hm⟩ := uuidBorder_bracket.cut_before (by simpa using hback) (templateFront t ++ arg)
  obtain ⟨hs', hm'⟩ := uuidBorder_blank.cut_behind hfront arg
  rw [fill_eq, hs, hm, hs', hm']
  exact ⟨rfl, rfl⟩

theorem showsUuids_line {l : Bytes} (h : newline ∉ l) : ShowsUuids (lineUuids l) [l] := by
  refine ⟨fun k hk => ?_, by simp⟩
  rwa [List.mem_singleton.mp hk]

theorem showsUuids_text (h : uuidFreeText t = true := by decide +kernel) :
    ShowsUuids [] [ascii t] := by
  simp only [uuidFreeText, Bool.and_eq_true, Bool.not_eq_true', List.contains_eq_mem,
    decide_eq_false_iff_not] at h
  have hline := showsUuids_line h.1
  rwa [lineUuids, h.2, if_neg Bool.false_ne_true] at hline

/-- A line with a string shows what is found in the string. -/
theorem showsUuids_string (h : uuidFree t = true) {arg : Bytes} (harg : newline ∉ arg) :
    ShowsUuids (lineUuids arg) [fill t arg] := by
  simp only [uuidFree, Bool.and_eq_true, Bool.not_eq_true', List.isEmpty_iff] at h
  obtain ⟨⟨⟨⟨hdelim, hfront⟩, hback⟩, hnone⟩, hnone'⟩ := h
  have hline := showsUuids_line (newline_notMem_fill hdelim harg)
  obtain ⟨hs, hm⟩ := cut_uuid hdelim arg
  rwa [lineUuids, hs, hm, hfront, hback, hnone, hnone', Bool.false_or, Bool.or_false,
    List.nil_append, List.append_nil] at hline

/-- A text without the letter has no match. -/
theorem lineUuids_eq_nil {s : Bytes} (h : ch 'u' ∉ s) : lineUuids s = [] := by
  unfold lineUuids
  rw [selects_eq_false (c := ch 'u') (by decide) h]
  rfl

theorem showsUuids_str (s : Bytes) (h : uuidFree t = true := by decide +kernel) :
    ShowsUuids (strayUuids s) [strLine t s] := showsUuids_string h (newline_notMem_reprStr s)

theorem letter_notMem_digits {ds : List ℕ} (h : ∀ d ∈ ds, d < 16) : ch 'u' ∉ ds.map hexDigit := by
  intro hmem
  obtain ⟨d, hd, heq⟩ := List.mem_map.mp hmem
  have hlt := h d hd
  interval_cases d <;> exact absurd heq (by decide)

theorem showsUuids_nat (v : ℕ) (h : uuidFree t = true := by decide +kernel) :
    ShowsUuids [] [natLine t v] := by
  have hdigits : ch 'u' ∉ decText v :=
    letter_notMem_digits fun d hd => (decDigits_lt hd).trans (by norm_num)
  have hfree : ch 'u' ∉ reprNat v := by
    have hpos : ¬ ((v : ℤ) < 0) := by omega
    have hsuffix (long : Bool) : ch 'u' ∉ if long then [ch 'L'] else [] := by
      cases long <;> decide
    simp [reprNat, PyInt.repr, hpos, hdigits, hsuffix]
  have hline := showsUuids_string h fun hmem => (plain_reprNat v _ hmem).1 rfl
  rwa [lineUuids_eq_nil hfree] at hline

theorem showsUuids_hex (v : ℕ) (h : uuidFree t = true := by decide +kernel) :
    ShowsUuids [] [hexLine t v] := by
  have hdigits : ch 'u' ∉ hexText v := letter_notMem_digits fun d hd => hexDigits_lt hd
  have hfree : ch 'u' ∉ altHex v := by
    simp only [altHex, List.mem_cons, not_or]
    exact ⟨by decide, by decide, hdigits⟩
  have hline := showsUuids_string h fun hmem => (plain_altHex v _ hmem).1 rfl
  rwa [lineUuids_eq_nil hfree] at hline

end MachoDump
