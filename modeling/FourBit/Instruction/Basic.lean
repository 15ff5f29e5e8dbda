import FourBit.Fault
import FourBit.Instruction.Opcode

namespace FourBit

structure Instruction where
  opcode : Opcode
  operand : Fin 16
  deriving DecidableEq, Repr

inductive DecodeError where
  | notByte (word : Int)
  | unassigned (word : Nat)
  deriving DecidableEq, Repr

namespace DecodeError

def word : DecodeError → Int
  | notByte word => word
  | unassigned word => word

def message : DecodeError → String
  | notByte word => s!"Instruction word out of byte range: {word}"
  | unassigned word =>
    "Unknown opcode prefix " ++ (Text.binary 4 (word / 16)).asString ++ " in word 0x" ++
      (Text.hex 2 word).asString

def fault (error : DecodeError) : Fault :=
  { Fault.plain .decode error.message with word? := some error.word }

end DecodeError

namespace Instruction

def byte (i : Instruction) : Fin 256 :=
  ⟨16 * i.opcode.code + i.operand, by omega⟩

def ofByte? (byte : Fin 256) : Option Instruction :=
  (Opcode.ofCode? (byte / 16 : Nat)).map fun opcode => ⟨opcode, Fin.ofNat 16 byte⟩

theorem ofByte?_byte (i : Instruction) : ofByte? i.byte = some i := by
  have high : (16 * i.opcode.code + i.operand : Nat) / 16 = i.opcode.code := by omega
  have low : Fin.ofNat 16 (16 * i.opcode.code + i.operand : Nat) = i.operand := by
    apply Fin.ext
    simp only [Fin.ofNat]
    omega
  simp only [ofByte?, byte, high, low, Opcode.ofCode?_code, Option.map_some]

theorem byte_of_ofByte? {byte : Fin 256} {i : Instruction} (found : ofByte? byte = some i) :
    i.byte = byte := by
  simp only [ofByte?, Option.map_eq_some_iff] at found
  obtain ⟨opcode, assigned, rfl⟩ := found
  have code := Opcode.code_of_ofCode? assigned
  apply Fin.ext
  simp only [Instruction.byte, code, Fin.ofNat]
  omega

def decode (word : Int) : Except DecodeError Instruction :=
  if 0 ≤ word ∧ word ≤ 255 then
    match ofByte? (Fin.ofNat 256 word.toNat) with
    | some i => .ok i
    | none => .error (.unassigned word.toNat)
  else .error (.notByte word)

def isJump (i : Instruction) : Bool := i.opcode.isJump

def text (i : Instruction) : Text :=
  if i.opcode.isRegisterOnly then i.opcode.form else i.opcode.form ++ Text.decimal i.operand

def disassemble (word : Int) : Text :=
  match decode word with
  | .ok i => i.text
  | .error _ => "??".toList

/-- Whether the instruction, executed at an address, comes back to it for ever. A conditional jump
does so while the carry is clear, since nothing in the loop sets it. -/
def isSelfLoop (i : Instruction) (addr carry : Int) : Bool :=
  i.isJump && (i.operand : Int) == addr && (i.opcode == .jmp || carry == 0)

end Instruction

end FourBit
