import DSYMCreator.Text.HexBytes
import DSYMCreator.Tool.FileView

/-!
# Which texts are taken as a UUID

`Macho<T>::dump` checks the length of the text without its hyphens and decodes
each pair of characters with `strtol`, which takes anything: a pair that is no
pair of digits becomes some byte all the same. Texts of digits are decoded to the
bytes that they spell.
-/
namespace DSYMCreator.Macho

open Text

variable {T : AddrType}

/-- The dump returns a file with the payload `p` in its only `LC_UUID`. -/
def WritesUuid (stack : StackContents) (uuid : StdString) (symbols : List (Symbol T))
    (off : Addr T) (p : Vector UInt8 16) : Prop :=
  ∃ buf f, dump stack uuid symbols off = .ok buf ∧ MachO.readFile buf = some f ∧
    f.uuids = [p.toList]

/-- The text spells the payload with 32 digits of either case. -/
def SpellsUuid (clean : StdString) (p : Vector UInt8 16) : Prop :=
  clean.length = 32 ∧ hexBytes clean = some p.toList

/-- What a reader of the file may rely on: as long as the tables fit, a payload is written
exactly when the text spells it. -/
def UuidExact (stack : StackContents) (uuid : StdString) (symbols : List (Symbol T))
    (off : Addr T) : Prop :=
  ∀ p, WritesUuid stack uuid symbols off p ↔
    SpellsUuid (cleanUuid uuid) p ∧ tablesEnd symbols + 0x1000 ≤ 2 ^ 32

/-! ## The payload -/

/-- The byte that is decoded from two characters. -/
def uuidByte (str : StdString) : UInt8 := UInt8.ofNat (strtol str % 256).toNat

theorem uuidByte_pair {a b : UInt8} {hi lo : ℕ} (ha : hexVal a = some hi) (hb : hexVal b = some lo) :
    uuidByte [a, b] = UInt8.ofNat (16 * hi + lo) := by
  have hhi := hexVal_lt ha
  have hlo := hexVal_lt hb
  unfold uuidByte
  rw [strtol_pair ha hb]
  congr 1
  omega

theorem hexBytes_slices {n : ℕ} {clean : StdString} (hlength : clean.length = 2 * n)
    (hhex : ∀ c ∈ clean, isHex c = true) :
    hexBytes clean = some (List.ofFn fun i : Fin n => uuidByte (Binary.slice clean (2 * i) 2)) := by
  induction n generalizing clean with
  | zero =>
    obtain rfl := List.eq_nil_of_length_eq_zero hlength
    rfl
  | succ n ih =>
    obtain ⟨a, b, cs, rfl⟩ : ∃ a b cs, clean = a :: b :: cs := by
      rcases clean with _ | ⟨a, _ | ⟨b, cs⟩⟩
      · simp at hlength
      · simp at hlength
        omega
      · exact ⟨a, b, cs, rfl⟩
    have hcs : cs.length = 2 * n := by
      simp only [List.length_cons] at hlength
      omega
    obtain ⟨hi, hhi⟩ := Option.isSome_iff_exists.mp (hhex a (by simp))
    obtain ⟨lo, hlo⟩ := Option.isSome_iff_exists.mp (hhex b (by simp))
    have hrest := ih hcs fun c hc => hhex c (by simp [hc])
    refine hexBytes_cons.mpr ⟨hi, lo, _, hhi, hlo, hrest, ?_⟩
    rw [List.ofFn_succ]
    congr 1
    exact uuidByte_pair hhi hlo

theorem uuidCommand_payload (stack : StackContents) (clean : StdString) :
    (uuidCommand stack clean).uuid.toList =
      List.ofFn fun i : Fin 16 => uuidByte (Binary.slice clean (2 * i) 2) := by
  unfold uuidCommand
  rw [Vector.toList_ofFn]
  rfl

theorem writesUuid_iff (stack : StackContents) (uuid : StdString) (symbols : List (Symbol T))
    (off : Addr T) (p : Vector UInt8 16) :
    WritesUuid stack uuid symbols off p ↔
      Fits uuid symbols ∧ p = (uuidCommand stack (cleanUuid uuid)).uuid := by
  have huuids : (fileView stack uuid symbols off).uuids =
      [(uuidCommand stack (cleanUuid uuid)).uuid.toList] := rfl
  constructor
  · rintro ⟨buf, f, hdump, hread, hp⟩
    obtain ⟨hfits, hbuf⟩ := (dump_eq_ok_iff ..).mp hdump
    rw [hbuf, readFile_image, Option.some_inj] at hread
    rw [← hread, huuids, List.cons.injEq] at hp
    exact ⟨hfits, (Vector.toList_inj.mp hp.1).symm⟩
  · rintro ⟨hfits, rfl⟩
    exact ⟨_, _, hfits.dump_eq stack off, readFile_image, huuids⟩

theorem spellsUuid_payload (stack : StackContents) {clean : StdString} (hlength : clean.length = 32)
    (hhex : ∀ c ∈ clean, isHex c = true) : SpellsUuid clean (uuidCommand stack clean).uuid := by
  refine ⟨hlength, ?_⟩
  rw [uuidCommand_payload]
  exact hexBytes_slices hlength hhex

/-- The payload is exact unless a text of the right length holds another character. -/
theorem uuidExact_iff (stack : StackContents) (uuid : StdString) (symbols : List (Symbol T))
    (off : Addr T) :
    UuidExact stack uuid symbols off ↔
      (tablesEnd symbols + 0x1000 ≤ 2 ^ 32 → (cleanUuid uuid).length = 32 →
        ∀ c ∈ cleanUuid uuid, isHex c = true) := by
  constructor
  · intro h htables hlength
    have hwrites := (writesUuid_iff stack uuid symbols off _).mpr ⟨⟨hlength, htables⟩, rfl⟩
    exact isHex_of_hexBytes ((h _).mp hwrites).1.2
  · intro h p
    rw [writesUuid_iff]
    constructor
    · rintro ⟨hfits, rfl⟩
      exact ⟨spellsUuid_payload stack hfits.uuid (h hfits.tables hfits.uuid), hfits.tables⟩
    · rintro ⟨⟨hlength, hbytes⟩, htables⟩
      have hpayload := spellsUuid_payload stack hlength (isHex_of_hexBytes hbytes)
      refine ⟨⟨hlength, htables⟩, ?_⟩
      apply Vector.toList_inj.mp
      exact Option.some.inj (hbytes.symm.trans hpayload.2)

/-! ## What exactness is good for -/

theorem lowerCase_eq_of_writesUuid {stack stack' : StackContents} {uuid uuid' : StdString}
    {symbols symbols' : List (Symbol T)} {off off' : Addr T} {p : Vector UInt8 16}
    (h : UuidExact stack uuid symbols off) (h' : UuidExact stack' uuid' symbols' off')
    (hp : WritesUuid stack uuid symbols off p) (hp' : WritesUuid stack' uuid' symbols' off' p) :
    (cleanUuid uuid).map lowerCase = (cleanUuid uuid').map lowerCase :=
  lowerCase_eq_of_hexBytes ((h p).mp hp).1.2 ((h' p).mp hp').1.2

theorem isHex_of_dump {stack : StackContents} {uuid : StdString} {symbols : List (Symbol T)}
    {off : Addr T} {buf : ByteBuffer} (h : UuidExact stack uuid symbols off)
    (hdump : dump stack uuid symbols off = .ok buf) : ∀ c ∈ cleanUuid uuid, isHex c = true := by
  have hfits := ((dump_eq_ok_iff ..).mp hdump).1
  have hwrites := (writesUuid_iff stack uuid symbols off _).mpr ⟨hfits, rfl⟩
  exact isHex_of_hexBytes ((h _).mp hwrites).1.2

/-- The UUID of the usage text with a `g` for its last digit. -/
def mistypedUuid : StdString := ascii "14494083-a184-31e2-946b-3f942a40295g"

theorem mistypedUuid_not_exact : ¬ UuidExact clearStack mistypedUuid ([] : List (Symbol .uint32)) 0 := by
  intro h
  have hlength : (cleanUuid mistypedUuid).length = 32 := by decide
  have htables : tablesEnd ([] : List (Symbol .uint32)) + 0x1000 ≤ 2 ^ 32 := by decide
  have hwrites := (writesUuid_iff clearStack mistypedUuid [] 0 _).mpr ⟨⟨hlength, htables⟩, rfl⟩
  have hbytes := ((h _).mp hwrites).1.2
  have hnone : hexBytes (cleanUuid mistypedUuid) = none := by decide
  rw [hnone] at hbytes
  cases hbytes

end DSYMCreator.Macho
