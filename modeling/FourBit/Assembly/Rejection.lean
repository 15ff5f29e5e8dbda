import FourBit.Machine.Cpu

namespace FourBit.Assembly

inductive Mnemonic where
  | add
  | mov
  | inp
  | out
  | jmp
  | jnc
  | hlt
  deriving DecidableEq, Repr

namespace Mnemonic

def name : Mnemonic → Text
  | add => "ADD".toList
  | mov => "MOV".toList
  | inp => "IN".toList
  | out => "OUT".toList
  | jmp => "JMP".toList
  | jnc => "JNC".toList
  | hlt => "HLT".toList

def all : List Mnemonic := [add, mov, inp, out, jmp, jnc, hlt]

def ofName? (t : Text) : Option Mnemonic := all.find? (·.name == t)

def operandCount : Mnemonic → Nat
  | add => 2
  | mov => 2
  | inp => 1
  | out => 1
  | jmp => 1
  | jnc => 1
  | hlt => 0

end Mnemonic

def registerName : Register → Text
  | .a => ['A']
  | .b => ['B']

def registerOfName? (t : Text) : Option Register :=
  if t = ['A'] then some .a else if t = ['B'] then some .b else none

inductive Complaint where
  | duplicateLabel (name : Text)
  | tooLarge
  | noInstructions
  | separatorsOnly
  | unknownMnemonic (word : Text)
  | operandCount (mnemonic : Mnemonic) (given : Nat)
  | notRegister (mnemonic : Mnemonic) (operand : Text)
  | sameRegister (register : Register)
  | outputFromA
  | notNumber (operand : Text)
  | notNibble (operand : Text)
  | unknownLabel (operand : Text)
  | labelPastEnd (name : Text)
  deriving DecidableEq, Repr

namespace Complaint

/-- A statement of separators alone is of no kind: nothing reports it. -/
def kind? : Complaint → Option FaultKind
  | duplicateLabel _ => some .duplicateLabel
  | tooLarge => some .programTooLarge
  | noInstructions => some .parse
  | separatorsOnly => none
  | unknownMnemonic _ => some .unknownMnemonic
  | operandCount _ _ => some .invalidOperand
  | notRegister _ _ => some .invalidOperand
  | sameRegister _ => some .invalidOperand
  | outputFromA => some .invalidOperand
  | notNumber _ => some .invalidOperand
  | notNibble _ => some .invalidOperand
  | unknownLabel _ => some .undefinedLabel
  | labelPastEnd _ => some .invalidOperand

def message : Complaint → Text
  | duplicateLabel name => "Duplicate label: ".toList ++ name
  | tooLarge => "Program exceeds 16 instructions".toList
  | noInstructions => "Program contains no instructions".toList
  | separatorsOnly => []
  | unknownMnemonic word => "Unknown mnemonic: ".toList ++ word
  | operandCount mnemonic given =>
    mnemonic.name ++ " takes ".toList ++ Text.decimal mnemonic.operandCount ++
      " operand(s), got ".toList ++ Text.decimal given
  | notRegister mnemonic operand =>
    mnemonic.name ++ " expects register A or B, got ".toList ++ operand
  | sameRegister register =>
    "MOV ".toList ++ registerName register ++ ", ".toList ++ registerName register ++
      " is not a TD4 instruction".toList
  | outputFromA => "OUT A is not a TD4 instruction; use MOV B, A then OUT B".toList
  | notNumber operand => "Invalid immediate value: ".toList ++ operand
  | notNibble operand => "Immediate out of 4-bit range: ".toList ++ operand
  | unknownLabel operand => "Unknown label: ".toList ++ operand
  | labelPastEnd name => "Label ".toList ++ name ++ " points past the end of ROM".toList

end Complaint

structure Rejection where
  complaint : Complaint
  addr : Nat
  line? : Option (Nat × Text)
  deriving DecidableEq, Repr

namespace Rejection

def failure (rejection : Rejection) : Failure :=
  match rejection.complaint.kind? with
  | some kind =>
    .fault ⟨kind, rejection.complaint.message.asString, 0, rejection.addr,
      rejection.line?.map fun line => (line.1 : Int), rejection.line?.map (·.2), none⟩
  | none => .breach .emptyStatement

end Rejection

end FourBit.Assembly
