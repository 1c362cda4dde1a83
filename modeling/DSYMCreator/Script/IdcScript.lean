import DSYMCreator.Order.NextElement
import DSYMCreator.Text.Lines

/-!
# The text of the IDA script

`print_all_method` of `all.idc` asks the database for the next function from
address 0 on and writes one line for each, with unsigned numbers and a newline
behind every line. The database is outside the repository; of `NextFunction` the
model has what it documents.
-/
namespace DSYMCreator

open Text NextElement

/-- A function that the loop visits: `addr`, `GetFunctionAttr(addr, FUNCATTR_END)` and
`GetFunctionName(addr)`. -/
structure IdcFunction where
  addr : ℕ
  fin : ℕ
  name : Bytes

/-- `0x%x`. -/
def formatAddress (n : ℕ) : Bytes := ch '0' :: ch 'x' :: hexText n

/-- `0x%x\t0x%x\t%s`, in front of the newline. -/
def formatFunction (f : IdcFunction) : Bytes :=
  joinWith tab [formatAddress f.addr, formatAddress f.fin, f.name]

/-- The file, with one `fprintf` for each function. -/
def printAllMethod (functions : List IdcFunction) : Bytes := unlines (functions.map formatFunction)

/-! ## The loop over a database -/

/-- A database: the starts of its functions, and what the script asks about them. -/
structure Database where
  functions : Finset ℕ
  badAddr : ℕ
  nextFunction : ℕ → ℕ
  functionEnd : ℕ → ℕ
  functionName : ℕ → Bytes
  finds : Finds nextFunction functions badAddr

namespace Database

variable (db : Database)

/-- What the script reads about the function at an address. -/
def function (addr : ℕ) : IdcFunction := ⟨addr, db.functionEnd addr, db.functionName addr⟩

/-- The body of the loop: the name, the end and one `fprintf`. -/
def printMethod (file : Bytes) (addr : ℕ) : Bytes :=
  file ++ (formatFunction (db.function addr) ++ [newline])

/-- The loop of `print_all_method` on a file that was just opened, with `n` tests at most. -/
def printMethods (n : ℕ) : Option Bytes :=
  loop db.nextFunction db.badAddr db.printMethod n (db.nextFunction 0) []

/-- The functions that the loop visits: those behind address 0, by ascending address. -/
def visited : List IdcFunction := (above db.functions 0).map db.function

theorem foldl_printMethod (addrs : List ℕ) (file : Bytes) :
    addrs.foldl db.printMethod file = file ++ printAllMethod (addrs.map db.function) := by
  induction addrs generalizing file with
  | nil => exact (List.append_nil file).symm
  | cons a addrs ih =>
    rw [List.foldl_cons, ih, printMethod, List.append_assoc]
    rfl

theorem printMethods_eq {n : ℕ} (hn : db.functions.card < n) :
    db.printMethods n = some (printAllMethod db.visited) := by
  have hlength := (length_above_le db.functions 0).trans_lt hn
  rw [printMethods, db.finds.loop_eq hlength, foldl_printMethod, List.nil_append]
  rfl

end Database

end DSYMCreator
