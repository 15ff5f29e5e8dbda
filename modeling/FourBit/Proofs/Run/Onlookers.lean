import FourBit.Proofs.Run.Loop
import FourBit.Proofs.Machine.Execution

namespace FourBit

namespace Ports

def unheard (ports : Ports) : Ports := { ports with heard := [] }

theorem read_unheard (supplier : Supplier) (ports : Ports) :
    ports.unheard.read supplier =
      ((ports.read supplier).1.unheard, (ports.read supplier).2) := by
  have asked : ports.unheard.asked = ports.asked := rfl
  unfold read
  rw [asked]
  split
  · rfl
  · split <;> rfl

theorem write_unheard (sink : Sink) (taking : ∀ values, sink values = none) (value : Int)
    (ports : Ports) :
    ports.unheard.write none value =
      ((ports.write (some sink) value).1.unheard, (ports.write (some sink) value).2) := by
  simp only [write, taking]
  rfl

theorem read_heard (supplier : Supplier) (ports : Ports) :
    (ports.read supplier).1.heard = ports.heard := by
  unfold read
  split
  · rfl
  · split <;> rfl

end Ports

namespace Machine

def unheard (m : Machine) : Machine := ⟨m.cpu, m.ports.unheard⟩

section Unheard

variable (supplier : Supplier) (sink : Sink) (taking : ∀ values, sink values = none)

theorem receive_unheard (register : Register) (m : Machine) :
    m.unheard.receive ⟨supplier, none⟩ register =
      ((m.receive ⟨supplier, some sink⟩ register).1.unheard,
        (m.receive ⟨supplier, some sink⟩ register).2) := by
  have same := Ports.read_unheard supplier m.ports
  have ports : m.unheard.ports = m.ports.unheard := rfl
  unfold receive
  simp only [ports, same]
  rcases m.ports.read supplier with ⟨reading, failure | value⟩ <;> rfl

include taking

theorem emit_unheard (value : Int) (m : Machine) :
    m.unheard.emit ⟨supplier, none⟩ value =
      ((m.emit ⟨supplier, some sink⟩ value).1.unheard,
        (m.emit ⟨supplier, some sink⟩ value).2) := by
  have same := Ports.write_unheard sink taking value m.ports
  have ports : m.unheard.ports = m.ports.unheard := rfl
  unfold emit
  simp only [ports, same]
  rcases m.ports.write (some sink) value with ⟨writing, _ | failure⟩ <;> rfl

theorem execute_unheard (i : Instruction) (m : Machine) :
    m.unheard.execute ⟨supplier, none⟩ i =
      ((m.execute ⟨supplier, some sink⟩ i).1.unheard,
        (m.execute ⟨supplier, some sink⟩ i).2) := by
  obtain ⟨opcode, operand⟩ := i
  cases opcode with
  | inA | inB => exact receive_unheard supplier sink _ m
  | outB | outIm => exact emit_unheard supplier sink taking _ m
  | addA | movAB | movA | movBA | addB | movB | jmp | jnc => rfl

end Unheard

def Heard (m : Machine) : Prop := m.ports.heard = m.ports.written

variable (supplier : Supplier) (sink : Sink)

theorem execute_heard (i : Instruction) (m : Machine) (heard : m.Heard) :
    (execute ⟨supplier, some sink⟩ i m).1.Heard := by
  unfold Heard
  rcases execute_ports ⟨supplier, some sink⟩ i m with same | read | ⟨value, written⟩
  · rw [same]
    exact heard
  · rw [read, Ports.read_heard, Ports.read_written]
    exact heard
  · rw [written]
    exact congrArg (nibble value :: ·) heard

theorem turn_heard (rom : Rom) (m : Machine) (heard : m.Heard) :
    (m.turn rom ⟨supplier, some sink⟩).1.Heard := by
  unfold turn
  split
  · exact heard
  · exact execute_heard supplier sink _ ⟨m.cpu, m.ports.clear⟩ heard

end Machine

namespace Progress

def unheard (p : Progress) : Progress := { p with machine := p.machine.unheard }

variable (rom : Rom) (supplier : Supplier) (sink : Sink) (options : RunOptions)

theorem iterate_heard (budget : Nat) (p : Progress) (heard : p.machine.Heard) :
    (p.iterate rom ⟨supplier, some sink⟩ options budget).1.machine.Heard := by
  apply iterate_keeps rom ⟨supplier, some sink⟩ options (fun q => q.machine.Heard) _ _ budget p heard
  · intro q r cell i after kept stepped
    have later := Machine.execute_heard supplier sink i ⟨q.machine.cpu, q.machine.ports.clear⟩ kept
    rw [stepped.executed] at later
    rw [Machine.Heard, stepped.ports]
    exact later
  · intro q r failure kept turned _ _
    have later := Machine.turn_heard supplier sink rom q.machine kept
    rw [turned] at later
    exact later

theorem step_unheard (taking : ∀ values, sink values = none) (p : Progress) :
    p.unheard.step rom ⟨supplier, none⟩ options =
      ((p.step rom ⟨supplier, some sink⟩ options).1.unheard,
        (p.step rom ⟨supplier, some sink⟩ options).2) := by
  have cpu : p.unheard.machine.cpu = p.machine.cpu := rfl
  unfold step
  simp only [cpu]
  cases fetch rom p.machine.cpu.pc with
  | error fault => rfl
  | ok found =>
      obtain ⟨cell, i⟩ := found
      have same := Machine.execute_unheard supplier sink taking i
        ⟨p.machine.cpu, p.machine.ports.clear⟩
      have clear : Machine.mk p.machine.cpu p.unheard.machine.ports.clear =
        (Machine.mk p.machine.cpu p.machine.ports.clear).unheard := rfl
      simp only [clear, same]
      rcases Machine.execute ⟨supplier, some sink⟩ i ⟨p.machine.cpu, p.machine.ports.clear⟩ with
        ⟨after, _ | failure⟩
      · simp only
        cases options.trace <;> rfl
      · rfl

theorem iterate_unheard (taking : ∀ values, sink values = none) (budget : Nat) (p : Progress) :
    p.unheard.iterate rom ⟨supplier, none⟩ options budget =
      ((p.iterate rom ⟨supplier, some sink⟩ options budget).1.unheard,
        (p.iterate rom ⟨supplier, some sink⟩ options budget).2) := by
  induction budget generalizing p with
  | zero => rfl
  | succ budget ih =>
      have flag : p.unheard.machine.cpu.halted = p.machine.cpu.halted := rfl
      simp only [iterate, flag, step_unheard rom supplier sink options taking]
      split
      · rfl
      · rcases p.step rom ⟨supplier, some sink⟩ options with ⟨q, _ | failure⟩
        · exact ih q
        · rfl

end Progress

namespace RunResult

def unheard (result : RunResult) : RunResult := { result with machine := result.machine.unheard }

end RunResult

theorem runWith_unheard (rom : Rom) (supplier : Supplier) (sink : Sink) (options : RunOptions)
    (program? : Option Program) (taking : ∀ values, sink values = none) :
    runWith rom ⟨supplier, none⟩ options program? =
      (runWith rom ⟨supplier, some sink⟩ options program?).map RunResult.unheard := by
  have loop := Progress.iterate_unheard rom supplier sink options taking options.maxSteps .start
  have start : Progress.start.unheard = Progress.start := rfl
  rw [start] at loop
  unfold runWith
  simp only [loop]
  rcases Progress.start.iterate rom ⟨supplier, some sink⟩ options options.maxSteps with
    ⟨p, _ | fault | breach⟩
  · have flag : p.unheard.machine.cpu.halted = p.machine.cpu.halted := rfl
    simp only [flag]
    split
    · rfl
    · split <;> rfl
  · rfl
  · rfl

theorem heard_eq_outputs (rom : Rom) (supplier : Supplier) (sink : Sink) (options : RunOptions)
    (program? : Option Program) (result : RunResult)
    (ran : runWith rom ⟨supplier, some sink⟩ options program? = .ok result) :
    result.heard = result.outputs := by
  have finished := Progress.runWith_finished rom ⟨supplier, some sink⟩ options program?
  have heard := Progress.iterate_heard rom supplier sink options options.maxSteps .start rfl
  rw [ran] at finished
  rw [RunResult.heard, RunResult.outputs, Ports.outputs, finished.ends.1]
  exact congrArg List.reverse heard

/-- A fault without the line that a program lends it. -/
def Fault.unsourced (fault : Fault) : Fault := { fault with line? := none, source? := none }

def RunResult.unsourced (result : RunResult) : RunResult :=
  { result with error? := result.error?.map Fault.unsourced }

theorem Progress.locate_unsourced (p : Progress) (program? : Option Program) (fault : Fault) :
    (p.locate program? fault).unsourced = (p.locate none fault).unsourced := by
  unfold locate
  simp only
  split <;> rfl

theorem Progress.result_unsourced (p : Progress) (program? : Option Program) (fault : Fault) :
    (p.result .error (some (p.locate program? fault))).unsourced =
      (p.result .error (some (p.locate none fault))).unsourced := by
  have same := p.locate_unsourced program? fault
  simp only [result, RunResult.unsourced, Option.map_some, same]

/-- A run goes the same way whether or not it knows the program. -/
theorem runWith_unsourced (rom : Rom) (devices : Devices) (options : RunOptions)
    (program? : Option Program) :
    (runWith rom devices options program?).map RunResult.unsourced =
      (runWith rom devices options none).map RunResult.unsourced := by
  unfold runWith
  rcases Progress.start.iterate rom devices options options.maxSteps with ⟨p, _ | fault | breach⟩
  · simp only
    split
    · rfl
    · split
      · rfl
      · exact congrArg Except.ok (p.result_unsourced program? _)
  · exact congrArg Except.ok (p.result_unsourced program? fault)
  · rfl

theorem unsourced_eq (rom : Rom) (devices : Devices) (options : RunOptions)
    (program? other? : Option Program) (result other : RunResult)
    (ran : runWith rom devices options program? = .ok result)
    (done : runWith rom devices options other? = .ok other) :
    result.unsourced = other.unsourced := by
  have both := (runWith_unsourced rom devices options program?).trans
    (runWith_unsourced rom devices options other?).symm
  rw [ran, done] at both
  exact Except.ok.inj both

end FourBit
