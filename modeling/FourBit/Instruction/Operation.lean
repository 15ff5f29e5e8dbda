import FourBit.Instruction.Basic

namespace FourBit

structure Operation where
  code : Int
  operand : Fin 16
  deriving DecidableEq, Repr

namespace Operation

def ofFields (code operand : Int) : Except Breach Operation :=
  if 0 ≤ operand ∧ operand ≤ 15 then .ok ⟨code, Fin.ofNat 16 operand.toNat⟩
  else .error (.operandRange operand)

def ofInstruction (i : Instruction) : Operation := ⟨i.opcode.code, i.operand⟩

def instruction? (op : Operation) : Option Instruction :=
  if 0 ≤ op.code then (Opcode.ofCode? op.code.toNat).map (⟨·, op.operand⟩) else none

theorem instruction?_ofInstruction (i : Instruction) : (ofInstruction i).instruction? = some i := by
  simp [ofInstruction, instruction?, Opcode.ofCode?_code]

def word (op : Operation) : Int := op.code * 16 + op.operand

def isJump (op : Operation) : Bool := op.instruction?.any (·.isJump)

def text (op : Operation) : Except Breach Text :=
  match op.instruction? with
  | some i => .ok i.text
  | none => .error (.noText op.code)

end Operation

end FourBit
