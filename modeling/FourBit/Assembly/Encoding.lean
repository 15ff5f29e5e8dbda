import FourBit.Assembly.Layout
import FourBit.Assembly.Literal
import FourBit.Instruction.Basic

namespace FourBit.Assembly

def isSeparator (c : Char) : Bool := Text.isBlank c || c == ','

def tokens (body : Text) : List Text := (body.splitOnP isSeparator).filter fun t => !t.isEmpty

def readRegister (mnemonic : Mnemonic) (operand : Text) : Except Complaint Register :=
  match registerOfName? operand.upper with
  | some register => .ok register
  | none => .error (.notRegister mnemonic operand)

def readImmediate (operand : Text) : Except Complaint (Fin 16) :=
  match Literal.read? operand with
  | none => .error (.notNumber operand)
  | some value =>
    if 0 ≤ value ∧ value ≤ 15 then .ok (Fin.ofNat 16 value.toNat)
    else .error (.notNibble operand)

def readTarget (labels : List (Text × Nat)) (operand : Text) : Except Complaint (Fin 16) :=
  if operand.head?.any Text.isDigitLike then readImmediate operand
  else match labels.lookup operand.upper with
    | none => .error (.unknownLabel operand)
    | some target =>
      if target < 16 then .ok (Fin.ofNat 16 target) else .error (.labelPastEnd operand.upper)

def addTo : Register → Opcode
  | .a => .addA
  | .b => .addB

def copyTo : Register → Opcode
  | .a => .movAB
  | .b => .movBA

def loadTo : Register → Opcode
  | .a => .movA
  | .b => .movB

def inputTo : Register → Opcode
  | .a => .inA
  | .b => .inB

def encode (labels : List (Text × Nat)) (addr : Nat) (mnemonic : Mnemonic)
    (operands : List Text) : Except Complaint Instruction :=
  match mnemonic, operands with
  | .add, [target, value] => do
    let register ← readRegister .add target
    let immediate ← readImmediate value
    .ok ⟨addTo register, immediate⟩
  | .mov, [target, source] => do
    let register ← readRegister .mov target
    match registerOfName? source.upper with
    | some other =>
      if other = register then .error (.sameRegister register) else .ok ⟨copyTo register, 0⟩
    | none => do
      let immediate ← readImmediate source
      .ok ⟨loadTo register, immediate⟩
  | .inp, [target] => do
    let register ← readRegister .inp target
    .ok ⟨inputTo register, 0⟩
  | .out, [source] =>
    match registerOfName? source.upper with
    | some .b => .ok ⟨.outB, 0⟩
    | some .a => .error .outputFromA
    | none => do
      let immediate ← readImmediate source
      .ok ⟨.outIm, immediate⟩
  | .hlt, [] => .ok ⟨.jmp, Fin.ofNat 16 addr⟩
  | .jmp, [target] => do
    let immediate ← readTarget labels target
    .ok ⟨.jmp, immediate⟩
  | .jnc, [target] => do
    let immediate ← readTarget labels target
    .ok ⟨.jnc, immediate⟩
  | mnemonic, operands => .error (.operandCount mnemonic operands.length)

def Statement.instruction (labels : List (Text × Nat)) (statement : Statement) :
    Except Complaint Instruction :=
  match tokens statement.body with
  | [] => .error .separatorsOnly
  | word :: operands =>
    match Mnemonic.ofName? word.upper with
    | none => .error (.unknownMnemonic word.upper)
    | some mnemonic => encode labels statement.addr mnemonic operands

end FourBit.Assembly
