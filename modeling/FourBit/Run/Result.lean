import FourBit.Machine.Basic
import FourBit.Rom.Basic

namespace FourBit

inductive StopReason where
  | halt
  | stepBudget
  | error
  deriving DecidableEq, Repr

def StopReason.name : StopReason → String
  | halt => "halt"
  | stepBudget => "step_budget"
  | error => "error"

/-- One executed step: where and what it was, and the registers after it. -/
structure TraceRow where
  step : Nat
  addr : Int
  cell : Cell
  instruction : Instruction
  a : Int
  b : Int
  carry : Int
  pc : Int
  input? : Option Int
  output? : Option Int
  deriving DecidableEq, Repr

structure RunResult where
  machine : Machine
  steps : Nat
  stop : StopReason
  trace : List TraceRow
  error? : Option Fault
  deriving DecidableEq, Repr

namespace RunResult

def status (result : RunResult) : String :=
  match result.error? with
  | some _ => "error"
  | none => "ok"

def halted (result : RunResult) : Bool := result.machine.cpu.halted

def outputs (result : RunResult) : List Int := result.machine.ports.outputs

def heard (result : RunResult) : List Int := result.machine.ports.heard.reverse

def output (result : RunResult) : Int := result.machine.ports.written.headD 0

def rejected (fault : Fault) : RunResult := ⟨Machine.start, 0, .error, [], some fault⟩

end RunResult

end FourBit
