import FourBit.Text.Basic
import FourBit.Width

namespace FourBit

inductive Opcode where
  | addA
  | movAB
  | inA
  | movA
  | movBA
  | addB
  | inB
  | movB
  | outB
  | outIm
  | jnc
  | jmp
  deriving DecidableEq, Repr

namespace Opcode

def code : Opcode → Fin 16
  | addA => 0
  | movAB => 1
  | inA => 2
  | movA => 3
  | movBA => 4
  | addB => 5
  | inB => 6
  | movB => 7
  | outB => 9
  | outIm => 11
  | jnc => 14
  | jmp => 15

def ofCode? : Nat → Option Opcode
  | 0 => some addA
  | 1 => some movAB
  | 2 => some inA
  | 3 => some movA
  | 4 => some movBA
  | 5 => some addB
  | 6 => some inB
  | 7 => some movB
  | 9 => some outB
  | 11 => some outIm
  | 14 => some jnc
  | 15 => some jmp
  | _ => none

theorem ofCode?_code (opcode : Opcode) : ofCode? opcode.code = some opcode := by
  cases opcode <;> rfl

theorem code_of_ofCode? {n : Nat} {opcode : Opcode} (found : ofCode? n = some opcode) :
    (opcode.code : Nat) = n := by
  unfold ofCode? at found
  split at found <;> cases found <;> rfl

def name : Opcode → String
  | addA => "ADD_A"
  | movAB => "MOV_AB"
  | inA => "IN_A"
  | movA => "MOV_A"
  | movBA => "MOV_BA"
  | addB => "ADD_B"
  | inB => "IN_B"
  | movB => "MOV_B"
  | outB => "OUT_B"
  | outIm => "OUT_IM"
  | jnc => "JNC"
  | jmp => "JMP"

def isJump : Opcode → Bool
  | jnc => true
  | jmp => true
  | _ => false

def isRegisterOnly : Opcode → Bool
  | movAB => true
  | inA => true
  | movBA => true
  | inB => true
  | outB => true
  | _ => false

def form : Opcode → Text
  | addA => "ADD A, ".toList
  | movAB => "MOV A, B".toList
  | inA => "IN A".toList
  | movA => "MOV A, ".toList
  | movBA => "MOV B, A".toList
  | addB => "ADD B, ".toList
  | inB => "IN B".toList
  | movB => "MOV B, ".toList
  | outB => "OUT B".toList
  | outIm => "OUT ".toList
  | jnc => "JNC ".toList
  | jmp => "JMP ".toList

end Opcode

end FourBit
