import DSYMCreator.Binary.Parser
import DSYMCreator.Binary.Slices

/-!
# A reader of little-endian 32-bit DWARF 2

Abbreviation declarations are decoded with ULEB128 numbers, attribute pairs
running to a `0, 0` pair and the table to a zero code or to the end of the
section. A debugging information entry is decoded by the forms its abbreviation
names, children running to a null entry. Nothing here knows what any producer
writes; the only inputs are the bytes of the three sections.
-/
namespace Dwarf

open Binary Binary.Parser

/-- An unsigned LEB128 number: seven bits a byte, the high bit set on all but the last. -/
def uleb128 : Parser ℕ
  | [] => none
  | b :: rest =>
    if b.toNat < 128 then some (b.toNat, rest)
    else
      match uleb128 rest with
      | none => none
      | some (m, r) => some (b.toNat - 128 + 128 * m, r)

/-- A signed LEB128 number: the last byte carries the sign in its sixth bit. -/
def sleb128 : Parser ℤ
  | [] => none
  | b :: rest =>
    if b.toNat < 64 then some ((b.toNat : ℤ), rest)
    else if b.toNat < 128 then some ((b.toNat : ℤ) - 128, rest)
    else
      match sleb128 rest with
      | none => none
      | some (m, r) => some ((b.toNat : ℤ) - 128 + 128 * m, r)

theorem reads_uleb128 {b : UInt8} (h : b.toNat < 128) : Reads uleb128 [b] b.toNat := by
  intro rest
  simp [uleb128, h]

structure AttrSpec where
  name : ℕ
  form : ℕ
  deriving DecidableEq, Repr

/-- An abbreviation declaration: the shape of the entries that carry its code. -/
structure AbbrevDecl where
  code : ℕ
  tag : ℕ
  hasChildren : Bool
  attrs : List AttrSpec
  deriving DecidableEq, Repr

/-- Attribute pairs up to the `0, 0` pair. -/
def attrSpecs : ℕ → Parser (List AttrSpec)
  | 0 => failure
  | fuel + 1 => do
    let name ← uleb128
    let form ← uleb128
    if name = 0 ∧ form = 0 then return []
    else do
      let rest ← attrSpecs fuel
      return ⟨name, form⟩ :: rest

/-- The declarations of one table, up to a zero code or the end of the section. -/
def abbrevDecls : ℕ → List UInt8 → Option (List AbbrevDecl)
  | _, [] => some []
  | 0, _ => none
  | fuel + 1, bs =>
    match uleb128 bs with
    | none => none
    | some (0, _) => some []
    | some (code, rest) =>
      let decl : Parser AbbrevDecl := do
        let tag ← uleb128
        let children ← uint 1
        let attrs ← attrSpecs bs.length
        return ⟨code, tag, children ≠ 0, attrs⟩
      match decl rest with
      | none => none
      | some (d, rest') => (abbrevDecls fuel rest').map fun ds => d :: ds

/-- The abbreviation table at an offset of the section. -/
def abbrevTable (sec : List UInt8) (off : ℕ) : Option (List AbbrevDecl) :=
  abbrevDecls (sec.drop off).length (sec.drop off)

inductive Value
  | address (v : ℕ)
  | constant (v : ℕ)
  | signed (v : ℤ)
  | flag (v : Bool)
  | string (s : List UInt8)
  | block (bs : List UInt8)
  | reference (v : ℕ)
  deriving DecidableEq, Repr

/-- The string that `DW_FORM_strp` points to in the string section. -/
def strp (strings : List UInt8) : Parser Value := do
  let off ← uint 4
  match cString.value? (strings.drop off) with
  | none => failure
  | some s => return .string s

/-- The value of a form other than `DW_FORM_indirect`, under the unit's address size. -/
def directForm (addressSize : ℕ) (strings : List UInt8) (form : ℕ) : Parser Value :=
  match form with
  | 0x01 => do return .address (← uint addressSize)
  | 0x03 => do return .block (← bytes (← uint 2))
  | 0x04 => do return .block (← bytes (← uint 4))
  | 0x05 => do return .constant (← uint 2)
  | 0x06 => do return .constant (← uint 4)
  | 0x07 => do return .constant (← uint 8)
  | 0x08 => do return .string (← cString)
  | 0x09 => do return .block (← bytes (← uleb128))
  | 0x0a => do return .block (← bytes (← uint 1))
  | 0x0b => do return .constant (← uint 1)
  | 0x0c => do return .flag ((← uint 1) ≠ 0)
  | 0x0d => do return .signed (← sleb128)
  | 0x0e => strp strings
  | 0x0f => do return .constant (← uleb128)
  | 0x10 => do return .reference (← uint addressSize)
  | 0x11 => do return .reference (← uint 1)
  | 0x12 => do return .reference (← uint 2)
  | 0x13 => do return .reference (← uint 4)
  | 0x14 => do return .reference (← uint 8)
  | 0x15 => do return .reference (← uleb128)
  | _ => failure

/-- `DW_FORM_indirect` stores the form in front of the value. -/
def attrValue (addressSize : ℕ) (strings : List UInt8) (form : ℕ) : Parser Value :=
  if form = 0x16 then do directForm addressSize strings (← uleb128)
  else directForm addressSize strings form

/-- A debugging information entry with its attributes and its children. -/
inductive Die
  | mk (tag : ℕ) (attrs : List (ℕ × Value)) (children : List Die)

/-- What the entries of a unit are decoded with. -/
structure Context where
  abbrevs : List AbbrevDecl
  addressSize : ℕ
  strings : List UInt8

namespace Context

variable (ctx : Context)

/-- The values of an entry, in the order of its abbreviation. -/
def attrs : List AttrSpec → Parser (List (ℕ × Value))
  | [] => return []
  | a :: as => do
    let v ← attrValue ctx.addressSize ctx.strings a.form
    let vs ← attrs as
    return (a.name, v) :: vs

def lookup (code : ℕ) : Parser AbbrevDecl :=
  match ctx.abbrevs.find? fun d => d.code == code with
  | none => failure
  | some d => return d

/-- Sibling entries up to the null entry that ends the chain. -/
def siblings : ℕ → Parser (List Die)
  | 0 => failure
  | fuel + 1 => do
    let code ← uleb128
    if code = 0 then return []
    else do
      let d ← ctx.lookup code
      let as ← ctx.attrs d.attrs
      let children ← if d.hasChildren then siblings fuel else pure []
      let rest ← siblings fuel
      return .mk d.tag as children :: rest

/-- The single root entry of a unit. -/
def root (fuel : ℕ) : Parser Die := do
  let code ← uleb128
  let d ← ctx.lookup code
  let as ← ctx.attrs d.attrs
  let children ← if d.hasChildren then ctx.siblings fuel else pure []
  return .mk d.tag as children

end Context

/-- Cut a section into units by their length fields; the units must tile the section. -/
def splitUnits : ℕ → List UInt8 → Option (List (List UInt8))
  | _, [] => some []
  | 0, _ => none
  | fuel + 1, bs =>
    match (uint 4).value? bs with
    | none => none
    | some len =>
      if 4 + len ≤ bs.length then
        (splitUnits fuel (bs.drop (4 + len))).map fun us => bs.take (4 + len) :: us
      else none

/-- The units of a section; every unit has at least its length field. -/
def units (sec : List UInt8) : Option (List (List UInt8)) :=
  splitUnits sec.length sec

/-- The version field stands behind the length field, in both kinds of unit. -/
def unitVersion (unit : List UInt8) : Option ℕ := (uint 2).value? (unit.drop 4)

/-- `header_length` of a line-number program, behind length and version. -/
def headerLength (unit : List UInt8) : Option ℕ := (uint 4).value? (unit.drop 6)

structure UnitHeader where
  version : ℕ
  abbrevOffset : ℕ
  addressSize : ℕ
  deriving DecidableEq, Repr

def unitHeader : Parser UnitHeader := do
  let _length ← uint 4
  let version ← uint 2
  let abbrevOffset ← uint 4
  let addressSize ← uint 1
  return ⟨version, abbrevOffset, addressSize⟩

/-- A compilation unit of `.debug_info`. -/
structure CompileUnit where
  version : ℕ
  addressSize : ℕ
  die : Die

/-- Decode one unit; the root entry has to end where the unit ends. -/
def compileUnit (abbrevs strings unit : List UInt8) : Option CompileUnit :=
  match unitHeader unit with
  | none => none
  | some (h, entries) =>
    match abbrevTable abbrevs h.abbrevOffset with
    | none => none
    | some table =>
      match Context.root ⟨table, h.addressSize, strings⟩ entries.length entries with
      | some (die, []) => some ⟨h.version, h.addressSize, die⟩
      | _ => none

/-- Read a whole `.debug_info` section with its abbreviations and strings. -/
def readDebugInfo (info abbrevs strings : List UInt8) : Option (List CompileUnit) :=
  match units info with
  | none => none
  | some us => us.mapM (compileUnit abbrevs strings)

/-! ## Rules -/

theorem reads_strp {strings s : List UInt8} {off : ℕ} (hat : OccursAt strings off (s ++ [0]))
    (hnul : 0 ∉ s) (hoff : off < 2 ^ 32) :
    Reads (strp strings) (leBytes 4 off) (.string s) := by
  obtain ⟨after, hdrop⟩ := hat.drop_eq
  have hstring : cString.value? (strings.drop off) = some s := by
    rw [hdrop, (reads_cString hnul).value?]
  apply (reads_uint hoff).bind_nil
  rw [hstring]
  exact reads_pure _

namespace Context

variable {ctx : Context}

theorem reads_attrs_cons {a : AttrSpec} {as : List AttrSpec} {v : Value} {vs : List (ℕ × Value)}
    {bs cs : List UInt8} (hv : Reads (attrValue ctx.addressSize ctx.strings a.form) bs v)
    (hvs : Reads (ctx.attrs as) cs vs) :
    Reads (ctx.attrs (a :: as)) (bs ++ cs) ((a.name, v) :: vs) :=
  hv.bind hvs.bind_pure

theorem reads_lookup {code : ℕ} {d : AbbrevDecl}
    (h : (ctx.abbrevs.find? fun d => d.code == code) = some d) : Reads (ctx.lookup code) [] d := by
  unfold lookup
  rw [h]
  exact reads_pure d

theorem reads_siblings_nil (fuel : ℕ) : Reads (ctx.siblings (fuel + 1)) [0] [] :=
  (reads_uleb128 (b := 0) (by decide)).bind_nil (reads_pure [])

theorem reads_siblings_leaf {fuel : ℕ} {code : UInt8} {d : AbbrevDecl} {bs cs : List UInt8}
    {vs : List (ℕ × Value)} {rest : List Die} (hcode : code.toNat < 128) (hpos : code.toNat ≠ 0)
    (hfind : (ctx.abbrevs.find? fun d => d.code == code.toNat) = some d)
    (hleaf : d.hasChildren = false) (hattrs : Reads (ctx.attrs d.attrs) bs vs)
    (hrest : Reads (ctx.siblings fuel) cs rest) :
    Reads (ctx.siblings (fuel + 1)) ([code] ++ (bs ++ cs)) (.mk d.tag vs [] :: rest) := by
  apply (reads_uleb128 hcode).bind
  rw [if_neg hpos]
  refine (reads_lookup hfind).nil_bind (hattrs.bind ?_)
  rw [hleaf]
  exact (reads_pure []).nil_bind hrest.bind_pure

/-- A root entry with children ends where their chain ends. -/
theorem reads_root {fuel : ℕ} {code : UInt8} {d : AbbrevDecl} {bs cs : List UInt8}
    {vs : List (ℕ × Value)} {children : List Die} (hcode : code.toNat < 128)
    (hfind : (ctx.abbrevs.find? fun d => d.code == code.toNat) = some d)
    (hparent : d.hasChildren = true) (hattrs : Reads (ctx.attrs d.attrs) bs vs)
    (hchildren : Reads (ctx.siblings fuel) cs children) :
    Reads (ctx.root fuel) ([code] ++ (bs ++ cs)) (.mk d.tag vs children) := by
  refine (reads_uleb128 hcode).bind ((reads_lookup hfind).nil_bind (hattrs.bind ?_))
  rw [hparent]
  exact hchildren.bind_pure

end Context

theorem compileUnit_eq {abbrevs strings head entries : List UInt8} {h : UnitHeader}
    {table : List AbbrevDecl} {die : Die} (hhead : Reads unitHeader head h)
    (htable : abbrevTable abbrevs h.abbrevOffset = some table)
    (hroot : Reads (Context.root ⟨table, h.addressSize, strings⟩ entries.length) entries die) :
    compileUnit abbrevs strings (head ++ entries) = some ⟨h.version, h.addressSize, die⟩ := by
  have hentries := hroot []
  rw [List.append_nil] at hentries
  simp only [compileUnit, hhead entries, htable, hentries]

theorem splitUnits_append {fuel : ℕ} {body rest : List UInt8} {us : List (List UInt8)}
    (hlen : body.length < 2 ^ 32) (hrest : splitUnits fuel rest = some us) :
    splitUnits (fuel + 1) (leBytes 4 body.length ++ body ++ rest) =
      some ((leBytes 4 body.length ++ body) :: us) := by
  set unit := leBytes 4 body.length ++ body with hunit
  have hsize : unit.length = 4 + body.length := by
    rw [hunit, List.length_append, length_leBytes]
  have hvalue : (uint 4).value? (unit ++ rest) = some body.length := by
    rw [hunit, List.append_assoc]
    exact (reads_uint hlen).value? _
  cases hsec : unit ++ rest with
  | nil =>
    have hzero := congrArg List.length hsec
    rw [List.length_append, hsize, List.length_nil] at hzero
    omega
  | cons b bs =>
    rw [hsec] at hvalue
    have hbound : 4 + body.length ≤ (b :: bs).length := by
      rw [← hsec, List.length_append, hsize]
      omega
    simp only [splitUnits, hvalue, if_pos hbound]
    rw [← hsec, ← hsize, List.drop_left, List.take_left, hrest]
    rfl

theorem units_single {body : List UInt8} (h : body.length < 2 ^ 32) :
    units (leBytes 4 body.length ++ body) = some [leBytes 4 body.length ++ body] := by
  have hlen : (leBytes 4 body.length ++ body).length = body.length + 3 + 1 := by
    rw [List.length_append, length_leBytes]
    omega
  have hempty : splitUnits (body.length + 3) [] = some [] := rfl
  have hsplit := splitUnits_append h hempty
  rwa [List.append_nil, ← hlen] at hsplit

end Dwarf
