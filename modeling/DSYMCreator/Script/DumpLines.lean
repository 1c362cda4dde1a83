import DSYMCreator.Script.SegmentScrape

/-!
# Lines of the dump that `grep` sees

Most lines have no pattern in them whatever number they show. A line of a segment
shows one number. A line with a string of the file counts when the string has a
pattern in it, and then every run of digits between the quotes does.
-/
namespace MachoDump

open Text Python DSYMCreator

/-- What `grep` makes of one line. -/
def lineNumbers (l : Bytes) : List ℕ :=
  if selects vmPatterns l then (digitRuns l).map decimalValue else []

theorem map_egrepDigits (lines : List Bytes) :
    (egrepDigits (egrep vmPatterns lines)).map decimalValue = lines.flatMap lineNumbers := by
  induction lines with
  | nil => rfl
  | cons l lines ih =>
    rw [List.flatMap_cons, ← ih]
    unfold egrepDigits egrep lineNumbers
    cases h : selects vmPatterns l with
    | false => simp [h]
    | true => simp [h]

/-- The digit runs in a string that has a pattern in it. -/
def strays (s : Bytes) : List ℕ := lineNumbers (reprStr s)

/-- The text of a template in front of its conversion, and the text behind it. -/
def templateFront (template : String) : Bytes := (ascii template).takeWhile (· ≠ ch '%')

def templateBack (template : String) : Bytes :=
  (((ascii template).dropWhile (· ≠ ch '%')).tail.dropWhile (· = ch '#')).tail

theorem fill_eq (template : String) (arg : Bytes) :
    fill template arg = templateFront template ++ arg ++ templateBack template := rfl

/-- A blank stands in front of the conversion and a bracket behind it, if anything does. -/
def delimited (template : String) : Bool :=
  (templateFront template).getLast? == some blank &&
    (templateBack template).head?.all (· == ch ')') &&
    !(templateFront template).contains newline && !(templateBack template).contains newline &&
    !selects vmPatterns (templateBack template)

/-- A template of a line that is dropped when its argument has no pattern. -/
def silent (template : String) : Bool :=
  delimited template && !selects vmPatterns (templateFront template)

/-- A line without an argument that is dropped. -/
def silentText (text : String) : Bool :=
  !(ascii text).contains newline && !selects vmPatterns (ascii text)

/-- The template has no digits of its own. -/
def digitless (template : String) : Bool :=
  (templateFront template).all (!isDigit ·) && (templateBack template).all (!isDigit ·)

/-- A template of a line that shows what the digits of a string are. -/
def bare (template : String) : Bool := silent template && digitless template

/-- A template of a line that shows a number of a segment. -/
def selected (template : String) : Bool :=
  delimited template && digitless template && selects vmPatterns (templateFront template)

/-- A byte at which lines can be cut: no digit, and in no pattern. -/
def Border (c : UInt8) : Prop := isDigit c = false ∧ ∀ p ∈ vmPatterns, c ∉ p

theorem forall_vmPatterns {q : Bytes → Prop} (haddr : q (ascii "vm_addr"))
    (hsize : q (ascii "vm_size")) : ∀ p ∈ vmPatterns, q p := by
  intro p hp
  rcases List.mem_pair.mp hp with rfl | rfl
  · exact haddr
  · exact hsize

theorem border_blank : Border blank := ⟨rfl, forall_vmPatterns (by decide) (by decide)⟩

theorem border_bracket : Border (ch ')') := ⟨rfl, forall_vmPatterns (by decide) (by decide)⟩

theorem Border.cut_behind {c : UInt8} (h : Border c) {xs : Bytes} (hxs : xs.getLast? = some c)
    (ys : Bytes) :
    selects vmPatterns (xs ++ ys) = (selects vmPatterns xs || selects vmPatterns ys) ∧
      digitRuns (xs ++ ys) = digitRuns xs ++ digitRuns ys := by
  obtain ⟨front, rfl⟩ := List.getLast?_eq_some_iff.mp hxs
  have hcut := selects_append_cons h.2 front
  have hruns := digitRuns_append_cons h.1 front
  rw [List.append_assoc, List.singleton_append, hcut ys, hcut [], hruns ys, hruns []]
  constructor
  · simp [selects, occursIn, vmPatterns, ascii]
  · simp [digitRuns]

theorem Border.cut_before {c : UInt8} (h : Border c) {ys : Bytes} (hys : ∀ d ∈ ys.head?, d = c)
    (xs : Bytes) :
    selects vmPatterns (xs ++ ys) = (selects vmPatterns xs || selects vmPatterns ys) ∧
      digitRuns (xs ++ ys) = digitRuns xs ++ digitRuns ys := by
  cases ys with
  | nil => simp [selects, occursIn, vmPatterns, ascii, digitRuns]
  | cons d ys =>
    obtain rfl := hys d rfl
    have hcut := selects_append_cons h.2
    have hruns := digitRuns_append_cons h.1
    have hnil : selects vmPatterns [] = false := by decide
    have hnone : digitRuns [] = [] := rfl
    rw [hcut xs ys, hruns xs ys]
    constructor
    · rw [← List.nil_append (d :: ys), hcut [] ys, hnil, Bool.false_or]
    · rw [← List.nil_append (d :: ys), hruns [] ys, hnone, List.nil_append]

theorem cut_fill {template : String} (h : delimited template = true) (arg : Bytes) :
    selects vmPatterns (fill template arg) =
        (selects vmPatterns (templateFront template) || selects vmPatterns arg) ∧
      digitRuns (fill template arg) = digitRuns (templateFront template) ++ digitRuns arg ++
        digitRuns (templateBack template) := by
  simp only [delimited, Bool.and_eq_true, beq_iff_eq, Bool.not_eq_true', Option.all_eq_true] at h
  obtain ⟨⟨⟨⟨hfront, hback⟩, -⟩, -⟩, hsilent⟩ := h
  obtain ⟨hs, hd⟩ := border_bracket.cut_before (by simpa using hback)
    (templateFront template ++ arg)
  obtain ⟨hs', hd'⟩ := border_blank.cut_behind hfront arg
  rw [fill_eq, hs, hd, hs', hd', hsilent, Bool.or_false]
  exact ⟨rfl, rfl⟩

theorem newline_notMem_fill {template : String} (h : delimited template = true) {arg : Bytes}
    (harg : newline ∉ arg) : newline ∉ fill template arg := by
  simp only [delimited, Bool.and_eq_true, Bool.not_eq_true', List.contains_eq_mem,
    decide_eq_false_iff_not] at h
  obtain ⟨⟨⟨-, hfront⟩, hback⟩, -⟩ := h
  rw [fill_eq]
  simp [hfront, hback, harg]

theorem selects_plain {s : Bytes} (h : Plain s) : selects vmPatterns s = false := by
  have hunderscore : ∀ p ∈ vmPatterns, ch '_' ∈ p := forall_vmPatterns (by decide) (by decide)
  apply selects_eq_false hunderscore
  intro hmem
  exact (h _ hmem).2 rfl

/-- The lines are lines, and these are the numbers in them. -/
def Wrote (numbers : List ℕ) (lines : List Bytes) : Prop :=
  (∀ l ∈ lines, newline ∉ l) ∧ lines.flatMap lineNumbers = numbers

theorem wrote_nil : Wrote [] [] := ⟨by simp, rfl⟩

theorem Wrote.append {ms ns : List ℕ} {ls ks : List Bytes} (hl : Wrote ms ls) (hk : Wrote ns ks) :
    Wrote (ms ++ ns) (ls ++ ks) := by
  refine ⟨fun l hmem => ?_, ?_⟩
  · rcases List.mem_append.mp hmem with hmem | hmem
    · exact hl.1 l hmem
    · exact hk.1 l hmem
  · rw [List.flatMap_append, hl.2, hk.2]

theorem wrote_line {l : Bytes} (h : newline ∉ l) : Wrote (lineNumbers l) [l] := by
  refine ⟨fun k hk => ?_, by simp⟩
  rwa [List.mem_singleton.mp hk]

theorem wrote_text {text : String} (h : silentText text = true) : Wrote [] [ascii text] := by
  simp only [silentText, Bool.and_eq_true, Bool.not_eq_true', List.contains_eq_mem,
    decide_eq_false_iff_not] at h
  have hline := wrote_line h.1
  rwa [lineNumbers, h.2, if_neg Bool.false_ne_true] at hline

theorem wrote_silent {template : String} (h : silent template = true) {arg : Bytes}
    (harg : Plain arg) : Wrote [] [fill template arg] := by
  simp only [silent, Bool.and_eq_true, Bool.not_eq_true'] at h
  have hline := wrote_line (newline_notMem_fill h.1 fun hmem => (harg _ hmem).1 rfl)
  rwa [lineNumbers, (cut_fill h.1 arg).1, h.2, selects_plain harg, Bool.or_false,
    if_neg Bool.false_ne_true] at hline

theorem digitRuns_fill {template : String} (hdelim : delimited template = true)
    (h : digitless template = true) (arg : Bytes) :
    digitRuns (fill template arg) = digitRuns arg := by
  simp only [digitless, Bool.and_eq_true, List.all_eq_true, Bool.not_eq_true'] at h
  obtain ⟨hfront, hback⟩ := h
  rw [(cut_fill hdelim arg).2, digitRuns_eq_nil hfront, digitRuns_eq_nil hback, List.nil_append,
    List.append_nil]

theorem digitRuns_reprNat (n : ℕ) : digitRuns (reprNat n) = [decText n] := by
  have hrun : digitRuns (decText n) = [decText n] :=
    digitRuns_of_digits (by simp [decText, decDigits_ne_nil]) fun c hc => isDigit_decText hc
  have hpos : ¬ ((n : ℤ) < 0) := by omega
  unfold reprNat PyInt.repr
  rw [PyInt.value_ofValue, if_neg hpos, List.nil_append, Int.natAbs_natCast]
  cases (PyInt.ofValue n).long with
  | false => simpa using hrun
  | true =>
    rw [if_pos rfl, digitRuns_append_cons (by decide), hrun]
    rfl

theorem wrote_number {template : String} (h : selected template = true) (n : ℕ) :
    Wrote [n] [fill template (reprNat n)] := by
  simp only [selected, Bool.and_eq_true] at h
  obtain ⟨⟨hdelim, hdigits⟩, hvm⟩ := h
  have hplain := plain_reprNat n
  have hline := wrote_line (newline_notMem_fill hdelim fun hmem => (hplain _ hmem).1 rfl)
  rw [lineNumbers, (cut_fill hdelim _).1, hvm, Bool.true_or, if_pos rfl,
    digitRuns_fill hdelim hdigits, digitRuns_reprNat, List.map_singleton,
    decimalValue_decText] at hline
  exact hline

/-- A line with a string shows the digits of the string or nothing. -/
theorem wrote_string {template : String} (h : bare template = true) (s : Bytes) :
    Wrote (strays s) [fill template (reprStr s)] := by
  simp only [bare, silent, Bool.and_eq_true, Bool.not_eq_true'] at h
  obtain ⟨⟨hdelim, hvm⟩, hdigits⟩ := h
  have hline := wrote_line (newline_notMem_fill hdelim (newline_notMem_reprStr s))
  rwa [lineNumbers, (cut_fill hdelim _).1, hvm, Bool.false_or,
    digitRuns_fill hdelim hdigits] at hline

end MachoDump
