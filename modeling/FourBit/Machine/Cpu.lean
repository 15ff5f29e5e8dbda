import FourBit.Fault

namespace FourBit

inductive Register where
  | a
  | b
  deriving DecidableEq, Repr

structure Cpu where
  a : Int
  b : Int
  carry : Int
  pc : Int
  inPort : Int
  outPort : Int
  halted : Bool
  deriving DecidableEq, Repr

def nibble (n : Int) : Int := n % 16

namespace Cpu

def start : Cpu := ⟨0, 0, 0, 0, 0, 0, false⟩

def get (cpu : Cpu) : Register → Int
  | .a => cpu.a
  | .b => cpu.b

def set (cpu : Cpu) (register : Register) (value : Int) : Cpu :=
  match register with
  | .a => { cpu with a := nibble value }
  | .b => { cpu with b := nibble value }

def add (cpu : Cpu) (register : Register) (value : Int) : Cpu :=
  let total := cpu.get register + value
  { cpu.set register total with carry := if total > 15 then 1 else 0 }

def advance (cpu : Cpu) : Cpu := { cpu with pc := nibble (cpu.pc + 1) }

def jump (cpu : Cpu) (target : Int) : Cpu := { cpu with pc := nibble target }

def description (cpu : Cpu) : String :=
  s!"CPU(a={cpu.a}, b={cpu.b}, carry={cpu.carry}, pc={cpu.pc}, in={cpu.inPort}, out={cpu.outPort})"

end Cpu

end FourBit
