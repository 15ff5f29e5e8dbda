import FourBit.Instruction.Operation
import FourBit.Machine.Ports

/-! One instruction at a time. A failing instruction leaves what it had already done. -/

namespace FourBit

structure Machine where
  cpu : Cpu
  ports : Ports
  deriving DecidableEq, Repr

namespace Machine

def start : Machine := ⟨Cpu.start, Ports.start⟩

def receive (devices : Devices) (register : Register) (m : Machine) : Machine × Option Failure :=
  match m.ports.read devices.supplier with
  | (ports, .ok value) => (⟨({ m.cpu with inPort := value }.set register value).advance, ports⟩, none)
  | (ports, .error failure) => (⟨m.cpu, ports⟩, some failure)

def emit (devices : Devices) (value : Int) (m : Machine) : Machine × Option Failure :=
  let cpu := { m.cpu with outPort := value }
  match m.ports.write devices.sink? value with
  | (ports, none) => (⟨cpu.advance, ports⟩, none)
  | (ports, some failure) => (⟨cpu, ports⟩, some failure)

def execute (devices : Devices) (i : Instruction) (m : Machine) : Machine × Option Failure :=
  match i.opcode with
  | .addA => (⟨(m.cpu.add .a i.operand).advance, m.ports⟩, none)
  | .movAB => (⟨(m.cpu.set .a m.cpu.b).advance, m.ports⟩, none)
  | .inA => m.receive devices .a
  | .movA => (⟨(m.cpu.set .a i.operand).advance, m.ports⟩, none)
  | .movBA => (⟨(m.cpu.set .b m.cpu.a).advance, m.ports⟩, none)
  | .addB => (⟨(m.cpu.add .b i.operand).advance, m.ports⟩, none)
  | .inB => m.receive devices .b
  | .movB => (⟨(m.cpu.set .b i.operand).advance, m.ports⟩, none)
  | .outB => m.emit devices m.cpu.b
  | .outIm => m.emit devices i.operand
  | .jnc =>
    (⟨if m.cpu.carry = 0 then m.cpu.jump i.operand else m.cpu.advance, m.ports⟩, none)
  | .jmp => (⟨m.cpu.jump i.operand, m.ports⟩, none)

/-- A code that the machine does not have changes nothing. -/
def executeOperation (devices : Devices) (op : Operation) (m : Machine) :
    Machine × Option Failure :=
  match op.instruction? with
  | some i => m.execute devices i
  | none => (m, some (.breach (.noExecutor op.code)))

end Machine

end FourBit
