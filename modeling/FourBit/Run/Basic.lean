import FourBit.Assembly.Program
import FourBit.Run.Options
import FourBit.Run.Result

/-! Runs: one instruction after another until a halt, a failure or the end of the budget. -/

namespace FourBit

/-- The state of a run between steps: the machine, the steps executed, the address fetched from last
and the trace, the newest row first. -/
structure Progress where
  machine : Machine
  steps : Nat
  addr : Int
  rows : List TraceRow
  deriving DecidableEq, Repr

namespace Progress

def start : Progress := ⟨Machine.start, 0, 0, []⟩

end Progress

def fetch (rom : Rom) (addr : Int) : Except Fault (Cell × Instruction) :=
  match rom.read addr with
  | .error fault => .error fault
  | .ok cell =>
    match Instruction.decode (cell.value : Nat) with
    | .error error => .error error.fault
    | .ok i => .ok (cell, i)

def TraceRow.ofStep (step : Nat) (addr : Int) (cell : Cell) (i : Instruction) (m : Machine) :
    TraceRow :=
  ⟨step, addr, cell, i, m.cpu.a, m.cpu.b, m.cpu.carry, m.cpu.pc, m.ports.lastIn, m.ports.lastOut⟩

namespace Progress

def step (rom : Rom) (devices : Devices) (options : RunOptions) (p : Progress) :
    Progress × Option Failure :=
  let addr := p.machine.cpu.pc
  match fetch rom addr with
  | .error fault => ({ p with addr := addr }, some (.fault fault))
  | .ok (cell, i) =>
    let halts := options.policy == .selfLoop && i.isSelfLoop addr p.machine.cpu.carry
    match Machine.execute devices i ⟨p.machine.cpu, p.machine.ports.clear⟩ with
    | (machine, some failure) => (⟨machine, p.steps, addr, p.rows⟩, some failure)
    | (machine, none) =>
      let machine := ⟨{ machine.cpu with halted := machine.cpu.halted || halts }, machine.ports⟩
      let rows :=
        if options.trace then .ofStep (p.steps + 1) addr cell i machine :: p.rows else p.rows
      (⟨machine, p.steps + 1, addr, rows⟩, none)

def iterate (rom : Rom) (devices : Devices) (options : RunOptions) :
    Nat → Progress → Progress × Option Failure
  | 0, p => (p, none)
  | budget + 1, p =>
    if p.machine.cpu.halted then (p, none)
    else match p.step rom devices options with
      | (q, none) => iterate rom devices options budget q
      | (q, some failure) => (q, some failure)

/-- A fault gets the place where the run stood, and the source line if the program has one there. -/
def locate (p : Progress) (program? : Option Program) (fault : Fault) : Fault :=
  let placed := { fault with step := p.steps, addr := p.addr }
  match program?.bind (·.at? p.addr) with
  | some entry => { placed with line? := some entry.line, source? := some entry.source }
  | none => placed

def result (p : Progress) (stop : StopReason) (error? : Option Fault) : RunResult :=
  ⟨p.machine, p.steps, stop, p.rows.reverse, error?⟩

end Progress

def stepLimitFault (maxSteps : Nat) : Fault :=
  .plain .stepLimitExceeded s!"Step limit exceeded: {maxSteps}"

/-- Runs a memory with given devices. The program, if there is one, only lends its lines to faults.
-/
def runWith (rom : Rom) (devices : Devices) (options : RunOptions) (program? : Option Program) :
    Except Breach RunResult :=
  match Progress.start.iterate rom devices options options.maxSteps with
  | (_, some (.breach breach)) => .error breach
  | (p, some (.fault fault)) => .ok (p.result .error (some (p.locate program? fault)))
  | (p, none) =>
    if p.machine.cpu.halted then .ok (p.result .halt none)
    else match options.policy with
      | .stepBudget => .ok (p.result .stepBudget none)
      | .selfLoop =>
        .ok (p.result .error (some (p.locate program? (stepLimitFault options.maxSteps))))

def RunOptions.devices (options : RunOptions) (supplier? : Option Supplier) (sink? : Option Sink) :
    Devices :=
  ⟨supplier?.getD (.replay (options.inputs.map .ok)), sink?⟩

def run (rom : Rom) (supplier? : Option Supplier) (sink? : Option Sink) (options : RunOptions)
    (program? : Option Program) : Except Breach RunResult :=
  runWith rom (options.devices supplier? sink?) options program?

/-- Assembles a source and runs it. A source that is no program gives a result too. -/
def runProgram (source : Text) (supplier? : Option Supplier) (sink? : Option Sink)
    (options : RunOptions) : Except Failure RunResult :=
  match Assembly.assemble source with
  | .error rejection =>
    match rejection.failure with
    | .fault fault => .ok (.rejected fault)
    | .breach breach => .error (.breach breach)
  | .ok program =>
    match program.rom with
    | .error misfit => .error misfit.failure
    | .ok rom =>
      match run rom supplier? sink? options (some program) with
      | .ok result => .ok result
      | .error breach => .error (.breach breach)

end FourBit
