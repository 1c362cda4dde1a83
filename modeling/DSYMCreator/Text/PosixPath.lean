import DSYMCreator.Text.LineTools
import Mathlib.Data.List.DropRight

/-!
# POSIX paths

The functions of the path module of the scripts' language. An absolute path is
normal when it is one or two slashes and names with single slashes between them;
`abspath` returns normal paths and leaves them as they are.
-/
namespace Text.PosixPath

def slash : UInt8 := ch '/'
def dot : Bytes := [ch '.']
def dotDot : Bytes := [ch '.', ch '.']

def isabs (p : Bytes) : Prop := p.head? = some slash

instance (p : Bytes) : Decidable (isabs p) := inferInstanceAs (Decidable (_ = _))

/-- `join(a, b)` -/
def join (a b : Bytes) : Bytes :=
  if isabs b then b
  else if a = [] ∨ a.getLast? = some slash then a ++ b
  else a ++ slash :: b

/-- `split(p)`: what is behind the last slash, and what is in front of it. -/
def split (p : Bytes) : Bytes × Bytes :=
  let head := p.rdropWhile (· ≠ slash)
  let tail := p.rtakeWhile (· ≠ slash)
  (if head.all (· = slash) then head else head.rdropWhile (· = slash), tail)

/-- Three and more slashes are one. -/
def initialSlashes (p : Bytes) : ℕ :=
  match p.takeWhile (· = slash) with
  | [] => 0
  | [_, _] => 2
  | _ => 1

/-- One iteration over the components. -/
def addComp (initialSlashes : ℕ) (newComps : List Bytes) (comp : Bytes) : List Bytes :=
  if comp = [] ∨ comp = dot then newComps
  else if comp ≠ dotDot ∨ (initialSlashes = 0 ∧ newComps = []) ∨
      newComps.getLast? = some dotDot then newComps ++ [comp]
  else newComps.dropLast

def normpath (p : Bytes) : Bytes :=
  if p = [] then dot
  else
    let n := initialSlashes p
    let comps := (p.splitOn slash).foldl (addComp n) []
    let path := List.replicate n slash ++ joinWith slash comps
    if path = [] then dot else path

/-- `abspath(p)` in the directory `cwd`. -/
def abspath (cwd p : Bytes) : Bytes := normpath (if isabs p then p else join cwd p)

/-! ## Normal paths -/

/-- A component that names something. -/
structure IsName (comp : Bytes) : Prop where
  ne_nil : comp ≠ []
  ne_dot : comp ≠ dot
  ne_dotDot : comp ≠ dotDot
  no_slash : slash ∉ comp

/-- A normal absolute path. -/
structure Normal (p : Bytes) : Prop where
  form : ∃ n comps, 0 < n ∧ n ≤ 2 ∧ (∀ c ∈ comps, IsName c) ∧
    p = List.replicate n slash ++ joinWith slash comps

/-- Behind a slash the stack holds names only. -/
theorem addComp_names {n : ℕ} (hn : 0 < n) {comps : List Bytes} (h : ∀ c ∈ comps, IsName c)
    {comp : Bytes} (hcomp : slash ∉ comp) : ∀ c ∈ addComp n comps comp, IsName c := by
  have hlast : comps.getLast? ≠ some dotDot := by
    intro heq
    exact (h dotDot (List.mem_of_getLast? heq)).ne_dotDot rfl
  unfold addComp
  split_ifs with hempty hpush
  · exact h
  · intro c hc
    rcases List.mem_append.mp hc with hc | hc
    · exact h c hc
    · obtain rfl := List.mem_singleton.mp hc
      rw [not_or] at hempty
      refine ⟨hempty.1, hempty.2, ?_, hcomp⟩
      rcases hpush with hne | ⟨hzero, -⟩ | heq
      · exact hne
      · omega
      · exact absurd heq hlast
  · exact fun c hc => h c (List.mem_of_mem_dropLast hc)

theorem foldl_addComp_names {n : ℕ} (hn : 0 < n) {parts comps : List Bytes}
    (hparts : ∀ c ∈ parts, slash ∉ c) (h : ∀ c ∈ comps, IsName c) :
    ∀ c ∈ parts.foldl (addComp n) comps, IsName c := by
  induction parts generalizing comps with
  | nil => exact h
  | cons p parts ih =>
    rw [List.foldl_cons]
    exact ih (fun c hc => hparts c (List.mem_cons_of_mem p hc))
      (addComp_names hn h (hparts p List.mem_cons_self))

theorem initialSlashes_bounds {p : Bytes} (h : isabs p) :
    0 < initialSlashes p ∧ initialSlashes p ≤ 2 := by
  unfold isabs at h
  obtain ⟨rest, rfl⟩ := List.head?_eq_some_iff.mp h
  unfold initialSlashes
  rw [List.takeWhile_cons_of_pos (by simp)]
  split <;> simp_all

theorem normal_normpath {p : Bytes} (h : isabs p) : Normal (normpath p) := by
  obtain ⟨hpos, hle⟩ := initialSlashes_bounds h
  have hne : p ≠ [] := by
    rintro rfl
    cases h
  have hparts : ∀ c ∈ p.splitOn slash, slash ∉ c := by
    intro c hc hmem
    rw [List.splitOn_eq_splitOnP] at hc
    simpa using splitOnP_pieces hc hmem
  refine ⟨initialSlashes p, (p.splitOn slash).foldl (addComp (initialSlashes p)) [], hpos, hle,
    foldl_addComp_names hpos hparts (by simp), ?_⟩
  unfold normpath
  rw [if_neg hne]
  simp only
  rw [if_neg]
  simp [hpos.ne']

theorem isabs_join {a b : Bytes} (h : isabs a) : isabs (join a b) := by
  have hne : a ≠ [] := by
    rintro rfl
    cases h
  unfold join
  split_ifs with hb
  · exact hb
  · unfold isabs at *
    rw [List.head?_append_of_ne_nil _ hne, h]
  · unfold isabs at *
    rw [List.head?_append_of_ne_nil _ hne, h]

theorem normal_abspath {cwd : Bytes} (h : isabs cwd) (p : Bytes) : Normal (abspath cwd p) := by
  unfold abspath
  split_ifs with hp
  · exact normal_normpath hp
  · exact normal_normpath (isabs_join h)

/-! ## The functions on normal paths -/

theorem head?_joinWith {comps : List Bytes} (h : ∀ c ∈ comps, IsName c) :
    (joinWith slash comps).head? ≠ some slash := by
  intro heq
  cases comps with
  | nil => cases heq
  | cons c comps =>
    have hc := h c List.mem_cons_self
    obtain ⟨b, bs, rfl⟩ := List.exists_cons_of_ne_nil hc.ne_nil
    have hb : b = slash := by
      cases comps with
      | nil => simpa [joinWith] using heq
      | cons d comps => simpa [joinWith_cons_cons] using heq
    exact hc.no_slash (hb ▸ List.mem_cons_self)

theorem initialSlashes_normal {n : ℕ} (hpos : 0 < n) (hle : n ≤ 2) {rest : Bytes}
    (h : rest.head? ≠ some slash) : initialSlashes (List.replicate n slash ++ rest) = n := by
  have htake : (List.replicate n slash ++ rest).takeWhile (· = slash) = List.replicate n slash := by
    rw [List.takeWhile_append_of_pos (by simp)]
    cases rest with
    | nil => simp
    | cons b bs =>
      have hb : b ≠ slash := by simpa using h
      rw [List.takeWhile_cons_of_neg (by simpa using hb), List.append_nil]
  unfold initialSlashes
  rw [htake]
  interval_cases n <;> rfl

theorem splitOn_replicate (n : ℕ) (rest : Bytes) :
    (List.replicate n slash ++ rest).splitOn slash =
      List.replicate n [] ++ rest.splitOn slash := by
  induction n with
  | zero => rfl
  | succ n ih =>
    rw [List.replicate_succ, List.replicate_succ, List.cons_append, List.cons_append, ← ih]
    have hempty : slash ∉ ([] : Bytes) := by simp
    simpa using List.splitOn_append_cons_self_of_not_mem hempty (List.replicate n slash ++ rest)

theorem foldl_addComp_replicate (n k : ℕ) (comps : List Bytes) :
    (List.replicate k []).foldl (addComp n) comps = comps := by
  induction k with
  | zero => rfl
  | succ k ih =>
    have hskip : addComp n comps [] = comps := by simp [addComp]
    rw [List.replicate_succ, List.foldl_cons, hskip, ih]

theorem foldl_addComp_of_names {n : ℕ} {comps : List Bytes} (h : ∀ c ∈ comps, IsName c)
    (front : List Bytes) : comps.foldl (addComp n) front = front ++ comps := by
  induction comps generalizing front with
  | nil => exact (List.append_nil front).symm
  | cons c comps ih =>
    have hc := h c List.mem_cons_self
    have hstep : addComp n front c = front ++ [c] := by
      simp [addComp, hc.ne_nil, hc.ne_dot, hc.ne_dotDot]
    rw [List.foldl_cons, hstep, ih fun d hd => h d (List.mem_cons_of_mem c hd), List.append_assoc,
      List.singleton_append]

theorem normpath_of_normal {p : Bytes} (h : Normal p) : normpath p = p := by
  obtain ⟨n, comps, hpos, hle, hnames, rfl⟩ := h.form
  have hne : List.replicate n slash ++ joinWith slash comps ≠ [] := by simp [hpos.ne']
  have hslashes := initialSlashes_normal hpos hle (head?_joinWith hnames)
  have hcomps : ((joinWith slash comps).splitOn slash).foldl (addComp n) [] = comps := by
    by_cases hnil : comps = []
    · subst hnil
      rfl
    · rw [splitOn_joinWith (fun c hc => (hnames c hc).no_slash) hnil, foldl_addComp_of_names hnames,
        List.nil_append]
  unfold normpath
  rw [if_neg hne]
  simp only
  rw [hslashes, splitOn_replicate, List.foldl_append, foldl_addComp_replicate, hcomps, if_neg hne]

theorem isabs_of_normal {p : Bytes} (h : Normal p) : isabs p := by
  obtain ⟨n, comps, hpos, -, -, rfl⟩ := h.form
  obtain ⟨k, rfl⟩ := Nat.exists_eq_succ_of_ne_zero hpos.ne'
  rfl

/-- A normal path stands for itself in every directory. -/
theorem abspath_of_normal {p : Bytes} (h : Normal p) (cwd : Bytes) : abspath cwd p = p := by
  unfold abspath
  rw [if_pos (isabs_of_normal h), normpath_of_normal h]

/-- The part of a path up to its last slash is all slashes, or it has one slash at its end. -/
def SingleSlash (head : Bytes) : Prop :=
  (head ≠ [] ∧ head.all (· = slash) = true) ∨
    ∃ front, head = front ++ [slash] ∧ front ≠ [] ∧ front.getLast? ≠ some slash

theorem SingleSlash.ends {head : Bytes} (h : SingleSlash head) : ∃ front, head = front ++ [slash] := by
  rcases h with ⟨hne, hall⟩ | ⟨front, rfl, -⟩
  · have hlast : head.getLast hne = slash := by
      simpa using List.all_eq_true.mp hall _ (List.getLast_mem hne)
    exact ⟨head.dropLast, by rw [← hlast, List.dropLast_append_getLast]⟩
  · exact ⟨front, rfl⟩

theorem split_append {head tail : Bytes} (hhead : ∃ front, head = front ++ [slash])
    (htail : slash ∉ tail) : split (head ++ tail) =
      (if head.all (· = slash) then head else head.rdropWhile (· = slash), tail) := by
  have hkeep : ∀ c ∈ tail.reverse, decide (c ≠ slash) = true := by
    intro c hc
    exact decide_eq_true fun heq => htail (heq ▸ List.mem_reverse.mp hc)
  obtain ⟨front, rfl⟩ := hhead
  have hdrop : (front ++ [slash] ++ tail).rdropWhile (· ≠ slash) = front ++ [slash] := by
    unfold List.rdropWhile
    rw [List.reverse_append, List.dropWhile_append_of_pos hkeep]
    simp
  have htake : (front ++ [slash] ++ tail).rtakeWhile (· ≠ slash) = tail := by
    unfold List.rtakeWhile
    rw [List.reverse_append, List.takeWhile_append_of_pos hkeep]
    simp
  unfold split
  rw [hdrop, htake]

theorem join_split {head tail suffix : Bytes} (hhead : SingleSlash head) (htail : slash ∉ tail)
    (hsuffix : slash ∉ suffix) :
    join (split (head ++ tail)).1 ((split (head ++ tail)).2 ++ suffix) = head ++ tail ++ suffix := by
  have hrel : ¬ isabs (tail ++ suffix) := by
    intro habs
    rcases List.mem_append.mp (List.mem_of_mem_head? habs) with h | h
    · exact htail h
    · exact hsuffix h
  rw [split_append hhead.ends htail]
  unfold join
  rw [if_neg hrel]
  rcases hhead with ⟨hne, hall⟩ | ⟨front, rfl, hne, hlast⟩
  · have hslash : head.getLast? = some slash := by
      obtain ⟨front, rfl⟩ := SingleSlash.ends (.inl ⟨hne, hall⟩)
      exact List.getLast?_concat
    simp only [if_pos hall]
    rw [if_pos (.inr hslash), List.append_assoc]
  · have hnot : (front ++ [slash]).all (· = slash) ≠ true := by
      intro hall
      apply hlast
      have hmem := List.getLast_mem hne
      have heq := List.all_eq_true.mp hall _ (List.mem_append_left _ hmem)
      rw [List.getLast?_eq_getLast_of_ne_nil hne, of_decide_eq_true heq]
    have hdrop : (front ++ [slash]).rdropWhile (· = slash) = front := by
      rw [List.rdropWhile_concat_pos _ _ _ (by simp), List.rdropWhile_eq_self_iff]
      intro hl heq
      exact hlast (by rw [List.getLast?_eq_getLast_of_ne_nil hl, of_decide_eq_true heq])
    simp only [if_neg hnot, hdrop]
    rw [if_neg]
    · simp
    · rw [not_or]
      exact ⟨hne, hlast⟩

theorem joinWith_concat (sep : UInt8) {parts : List Bytes} (hne : parts ≠ []) (p : Bytes) :
    joinWith sep (parts ++ [p]) = joinWith sep parts ++ sep :: p := by
  induction parts with
  | nil => exact absurd rfl hne
  | cons q parts ih =>
    cases parts with
    | nil => simp [joinWith]
    | cons r parts =>
      have hrest := ih (List.cons_ne_nil r parts)
      rw [List.cons_append, List.cons_append, joinWith_cons_cons, ← List.cons_append, hrest,
        joinWith_cons_cons, List.append_assoc, List.cons_append]

theorem getLast?_joinWith {comps : List Bytes} (h : ∀ c ∈ comps, IsName c) (hne : comps ≠ []) :
    joinWith slash comps ≠ [] ∧ (joinWith slash comps).getLast? ≠ some slash := by
  obtain ⟨front, c, rfl⟩ : ∃ front c, comps = front ++ [c] :=
    ⟨comps.dropLast, comps.getLast hne, (List.dropLast_append_getLast hne).symm⟩
  have hc := h c (by simp)
  have hlast : ∀ xs : Bytes, (xs ++ c).getLast? ≠ some slash := by
    intro xs heq
    rw [List.getLast?_append_of_ne_nil _ hc.ne_nil] at heq
    exact hc.no_slash (List.mem_of_getLast? heq)
  by_cases hfront : front = []
  · subst hfront
    exact ⟨by simpa [joinWith] using hc.ne_nil, by simpa [joinWith] using hlast []⟩
  · rw [joinWith_concat slash hfront]
    refine ⟨by simp, ?_⟩
    have heq : joinWith slash front ++ slash :: c = (joinWith slash front ++ [slash]) ++ c := by simp
    rw [heq]
    exact hlast _

theorem exists_split_of_normal {p : Bytes} (h : Normal p) :
    ∃ head tail, p = head ++ tail ∧ SingleSlash head ∧ slash ∉ tail := by
  obtain ⟨n, comps, hpos, -, hnames, rfl⟩ := h.form
  have hslashes : SingleSlash (List.replicate n slash) := .inl ⟨by simp [hpos.ne'], by simp⟩
  by_cases hnil : comps = []
  · subst hnil
    exact ⟨_, [], rfl, hslashes, by simp⟩
  · obtain ⟨front, c, rfl⟩ : ∃ front c, comps = front ++ [c] :=
      ⟨comps.dropLast, comps.getLast hnil, (List.dropLast_append_getLast hnil).symm⟩
    have hc := hnames c (by simp)
    by_cases hfront : front = []
    · subst hfront
      exact ⟨List.replicate n slash, c, by simp [joinWith], hslashes, hc.no_slash⟩
    · obtain ⟨hne, hlast⟩ := getLast?_joinWith (fun d hd => hnames d (List.mem_append_left _ hd)) hfront
      refine ⟨List.replicate n slash ++ joinWith slash front ++ [slash], c, ?_, .inr ⟨_, rfl, ?_, ?_⟩,
        hc.no_slash⟩
      · rw [joinWith_concat slash hfront]
        simp
      · simp [hne]
      · rw [List.getLast?_append_of_ne_nil _ hne]
        exact hlast

/-- A suffix on the last component of a normal path is a suffix of the path. -/
theorem join_split_of_normal {p suffix : Bytes} (h : Normal p) (hsuffix : slash ∉ suffix) :
    join (split p).1 ((split p).2 ++ suffix) = p ++ suffix := by
  obtain ⟨head, tail, rfl, hhead, htail⟩ := exists_split_of_normal h
  exact join_split hhead htail hsuffix

/-- A suffix that is longer than dots leaves a path normal. -/
theorem Normal.append {p suffix : Bytes} (h : Normal p) (hsuffix : slash ∉ suffix)
    (hlong : 2 < suffix.length) : Normal (p ++ suffix) := by
  obtain ⟨n, comps, hpos, hle, hnames, rfl⟩ := h.form
  have hname (c : Bytes) (hc : slash ∉ c) : IsName (c ++ suffix) := by
    have hlength : 2 < (c ++ suffix).length := by
      rw [List.length_append]
      omega
    refine ⟨?_, ?_, ?_, ?_⟩
    · intro heq
      simp [heq] at hlength
    · intro heq
      simp [heq, dot] at hlength
    · intro heq
      simp [heq, dotDot] at hlength
    · rw [List.mem_append]
      exact fun hmem => hmem.elim hc hsuffix
  by_cases hnil : comps = []
  · subst hnil
    refine ⟨n, [suffix], hpos, hle, ?_, by simp [joinWith]⟩
    intro c hc
    rw [List.mem_singleton.mp hc]
    exact hname [] (by simp)
  · obtain ⟨front, c, rfl⟩ : ∃ front c, comps = front ++ [c] :=
      ⟨comps.dropLast, comps.getLast hnil, (List.dropLast_append_getLast hnil).symm⟩
    have hc := hname c (hnames c (by simp)).no_slash
    refine ⟨n, front ++ [c ++ suffix], hpos, hle, ?_, ?_⟩
    · intro d hd
      rcases List.mem_append.mp hd with hd | hd
      · exact hnames d (List.mem_append_left _ hd)
      · rwa [List.mem_singleton.mp hd]
    · by_cases hfront : front = []
      · subst hfront
        simp [joinWith]
      · rw [joinWith_concat slash hfront, joinWith_concat slash hfront]
        simp

end Text.PosixPath
