import FourBit.Datum
import FourBit.Instruction.Basic

namespace FourBit

/-- A word of the memory. A truth value counts as the byte one or zero and keeps its own spelling.
-/
inductive Cell where
  | byte (value : Fin 256)
  | truth (value : Bool)
  deriving DecidableEq, Repr

namespace Cell

def value : Cell → Fin 256
  | byte value => value
  | truth true => 1
  | truth false => 0

def datum : Cell → Datum
  | byte value => .int value
  | truth value => .truth value

def ofDatum? : Datum → Option Cell
  | .int value => if 0 ≤ value ∧ value ≤ 255 then some (byte (Fin.ofNat 256 value.toNat)) else none
  | .truth value => some (truth value)
  | _ => none

end Cell

inductive Rom.Misfit where
  | wrongSize (count : Nat)
  | notByte (addr : Nat) (word : Datum)
  | tooLong (count : Nat)
  deriving Repr

namespace Rom.Misfit

def message : Misfit → String
  | wrongSize count => s!"ROM image must be exactly 16 words, got {count}"
  | notByte addr word => s!"ROM word at address {addr} is not a byte: " ++ word.quoted.asString
  | tooLong count => s!"Program has {count} words; ROM holds 16"

def addr : Misfit → Nat
  | notByte addr _ => addr
  | _ => 0

def fault (misfit : Misfit) : Fault := .atAddr .image misfit.message misfit.addr

def failure (misfit : Misfit) : Failure :=
  match misfit with
  | notByte _ word => .showing word misfit.fault
  | _ => .fault misfit.fault

end Rom.Misfit

structure Rom where
  cells : List Cell
  length_eq : cells.length = 16
  deriving DecidableEq, Repr

namespace Rom

def bytes (rom : Rom) : List (Fin 256) := rom.cells.map Cell.value

instance : BEq Rom where
  beq left right := left.bytes == right.bytes

instance : Hashable Rom where
  hash rom := hash (rom.bytes.map Fin.val)

/-- The first word that is no byte is reported with its address. -/
def readCells (addr : Nat) : List Datum → Except Misfit (List Cell)
  | [] => .ok []
  | word :: rest =>
    match Cell.ofDatum? word with
    | none => .error (.notByte addr word)
    | some cell => (readCells (addr + 1) rest).map (cell :: ·)

theorem length_readCells {addr : Nat} {words : List Datum} {cells : List Cell}
    (read : readCells addr words = .ok cells) : cells.length = words.length := by
  induction words generalizing addr cells with
  | nil =>
      simp only [readCells, Except.ok.injEq] at read
      subst read
      rfl
  | cons word rest ih =>
      simp only [readCells] at read
      split at read
      · cases read
      · cases tail : readCells (addr + 1) rest with
        | error error => simp [tail, Except.map] at read
        | ok more =>
            simp only [tail, Except.map, Except.ok.injEq] at read
            subst read
            simp [ih tail]

def ofWords (words : List Datum) : Except Misfit Rom :=
  if size : words.length = 16 then
    match read : readCells 0 words with
    | .ok cells => .ok ⟨cells, (length_readCells read).trans size⟩
    | .error error => .error error
  else .error (.wrongSize words.length)

def haltWord (addr : Int) : Int := 240 + addr % 16

def ofProgram (words : List Datum) : Except Misfit Rom :=
  if words.length ≤ 16 then
    ofWords (words ++
      (List.range' words.length (16 - words.length)).map fun addr => .int (haltWord addr))
  else .error (.tooLong words.length)

def ofImage (image : List UInt8) : Except Misfit Rom :=
  ofProgram (image.map fun byte => .int byte.toNat)

def accessFault (addr : Int) : Fault :=
  .atAddr .romAccess s!"ROM address out of range: {addr}" addr

def read (rom : Rom) (addr : Int) : Except Fault Cell :=
  if bounds : 0 ≤ addr ∧ addr < 16 then
    .ok (rom.cells.get ⟨addr.toNat, by have size := rom.length_eq; omega⟩)
  else .error (accessFault addr)

def snapshot (rom : Rom) : List Datum := rom.cells.map Cell.datum

def image (rom : Rom) : List UInt8 := rom.bytes.map fun byte : Fin 256 => UInt8.ofNat byte

end Rom

end FourBit
