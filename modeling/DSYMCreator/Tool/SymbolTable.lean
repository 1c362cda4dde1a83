import DSYMCreator.Tool.MachoTypeWrapper

/-!
# The symbol table

`SymbolTable<T>::dump` appends one `nlist` object a symbol, its name replaced by
the offset that the string table's map holds for it.
-/
namespace DSYMCreator

open Binary

namespace SymbolTable

variable {T : AddrType}

/-- The `nlist` object of one iteration, built in the memory `raw`. -/
def entry (raw : RawMemory) (s : Symbol T) (strx : BitVec 32) : Nlist T :=
  { Nlist.ofMemory T raw with
    nStrx := strx
    nType := N_SECT
    nSect := 1
    nDesc := if T.is64 then 0 else N_ARM_THUMB_DEF
    nValue := s.base }

/-- The loop from iteration `i` on, with the bytes appended so far. -/
def dumpFrom (stack : StackContents) (nameToOffset : NameToOffset) :
    ℕ → List (Symbol T) → ByteBuffer → Except Failure ByteBuffer
  | _, [], result => .ok result
  | i, s :: symbols, result => do
    let it := nameToOffset.lookup s.name
    cAssert (it ≠ none) .symbolName
    let raw := stack (.nlist i)
    let nlist := entry raw s (it.getD 0)
    let result := appendToBuffer result (objectBytes raw nlist.members)
    dumpFrom stack nameToOffset (i + 1) symbols result

def dump (stack : StackContents) (symbols : List (Symbol T)) (nameToOffset : NameToOffset) :
    Except Failure ByteBuffer :=
  dumpFrom stack nameToOffset 0 symbols []

end SymbolTable
end DSYMCreator
