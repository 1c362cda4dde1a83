import DSYMCreator.Binary.LittleEndian

/-!
# Byte parsers and what they read

A parser takes bytes from the front of its input and fails when they run out.
`Reads p bs a` is the rule used everywhere: on any input that starts with `bs`,
the parser returns `a` and leaves exactly the rest. It composes along `bind`
and along repetition, so that a format's reader is checked against a writer
one field, one record and one table at a time.
-/
namespace Binary

/-- A parser over a byte list: a result and the bytes left, or no result. -/
abbrev Parser := StateT (List UInt8) Option

namespace Parser

variable {α β γ : Type}

/-- Take exactly `n` bytes. -/
def bytes (n : ℕ) : Parser (List UInt8) := fun bs =>
  if n ≤ bs.length then some (bs.take n, bs.drop n) else none

/-- An unsigned little-endian number of `n` bytes. -/
def uint (n : ℕ) : Parser ℕ := do
  let bs ← bytes n
  return leNat bs

/-- A NUL-terminated string; the terminator is consumed and not returned. -/
def cString : Parser (List UInt8) := fun bs =>
  match bs.dropWhile (· ≠ 0) with
  | [] => none
  | _ :: rest => some (bs.takeWhile (· ≠ 0), rest)

/-- Run a parser `n` times and collect the results. -/
def times (p : Parser α) : ℕ → Parser (List α)
  | 0 => return []
  | n + 1 => do
    let x ← p
    let xs ← times p n
    return x :: xs

/-- Read the bytes of one number at the front of `bs`, if they are all there. -/
def value? (p : Parser α) (bs : List UInt8) : Option α := (p bs).map Prod.fst

/-- On every input that starts with `bs`, `p` returns `a` and leaves the rest. -/
def Reads (p : Parser α) (bs : List UInt8) (a : α) : Prop :=
  ∀ rest, p (bs ++ rest) = some (a, rest)

theorem Reads.value? {p : Parser α} {bs : List UInt8} {a : α} (h : Reads p bs a)
    (rest : List UInt8) : p.value? (bs ++ rest) = some a := by
  simp [Parser.value?, h rest]

theorem reads_pure (a : α) : Reads (pure a) [] a := fun _ => rfl

theorem Reads.bind {p : Parser α} {q : α → Parser β} {bs cs : List UInt8} {a : α} {b : β}
    (hp : Reads p bs a) (hq : Reads (q a) cs b) : Reads (p >>= q) (bs ++ cs) b := by
  intro rest
  change (p (bs ++ cs ++ rest) >>= fun r => q r.1 r.2) = _
  rw [List.append_assoc, hp]
  exact hq rest

theorem Reads.bind_nil {p : Parser α} {q : α → Parser β} {bs : List UInt8} {a : α} {b : β}
    (hp : Reads p bs a) (hq : Reads (q a) [] b) : Reads (p >>= q) bs b := by
  simpa using hp.bind hq

theorem Reads.nil_bind {p : Parser α} {q : α → Parser β} {cs : List UInt8} {a : α} {b : β}
    (hp : Reads p [] a) (hq : Reads (q a) cs b) : Reads (p >>= q) cs b := hp.bind hq

/-- A last step that only repackages the value consumes nothing. -/
theorem Reads.bind_pure {p : Parser α} {f : α → β} {bs : List UInt8} {a : α}
    (hp : Reads p bs a) : Reads (p >>= fun x => pure (f x)) bs (f a) := by
  exact hp.bind_nil (reads_pure (f a))

theorem reads_bytes (bs : List UInt8) : Reads (bytes bs.length) bs bs := by
  intro rest
  simp [bytes]

theorem Reads.bytes {n : ℕ} {bs : List UInt8} (h : bs.length = n) :
    Reads (Parser.bytes n) bs bs := h ▸ reads_bytes bs

theorem reads_uint {n v : ℕ} (h : v < 256 ^ n) : Reads (uint n) (leBytes n v) v := by
  have hb : Reads (Parser.bytes n) (leBytes n v) (leBytes n v) := .bytes (length_leBytes n v)
  have hu := hb.bind_pure (f := leNat)
  rwa [leNat_leBytes_of_lt h] at hu

theorem reads_bitVec {n : ℕ} (v : BitVec (8 * n)) : Reads (uint n) (leBytes n v.toNat) v.toNat :=
  reads_uint (toNat_lt_pow_bytes v)

theorem takeWhile_terminated {s : List UInt8} (hs : (0 : UInt8) ∉ s) (rest : List UInt8) :
    (s ++ 0 :: rest).takeWhile (· ≠ 0) = s := by
  induction s with
  | nil => simp
  | cons b s ih =>
    have hb : b ≠ 0 := fun h => hs (h ▸ List.mem_cons_self)
    have ih' := ih fun h => hs (List.mem_cons_of_mem b h)
    simp only [List.cons_append, List.takeWhile_cons, decide_eq_true hb, if_true, ih']

theorem dropWhile_terminated {s : List UInt8} (hs : (0 : UInt8) ∉ s) (rest : List UInt8) :
    (s ++ 0 :: rest).dropWhile (· ≠ 0) = 0 :: rest := by
  induction s with
  | nil => simp
  | cons b s ih =>
    have hb : b ≠ 0 := fun h => hs (h ▸ List.mem_cons_self)
    have ih' := ih fun h => hs (List.mem_cons_of_mem b h)
    simp only [List.cons_append, List.dropWhile_cons, decide_eq_true hb, if_true, ih']

theorem reads_cString {s : List UInt8} (hs : (0 : UInt8) ∉ s) : Reads cString (s ++ [0]) s := by
  intro rest
  unfold cString
  rw [List.append_assoc, List.singleton_append, dropWhile_terminated hs, takeWhile_terminated hs]

/-- A table of records, each read by `p`, is read by running `p` once a record. -/
theorem reads_times {p : Parser β} {enc : α → List UInt8} {val : α → β} {xs : List α}
    (h : ∀ x ∈ xs, Reads p (enc x) (val x)) :
    Reads (times p xs.length) (xs.flatMap enc) (xs.map val) := by
  induction xs with
  | nil => exact reads_pure []
  | cons x xs ih =>
    have hx := h x List.mem_cons_self
    have hxs := ih fun y hy => h y (List.mem_cons_of_mem x hy)
    exact hx.bind hxs.bind_pure

end Parser
end Binary
