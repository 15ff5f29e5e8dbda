import FourBit.Proofs.Run.Ending
import FourBit.Proofs.Machine.Replay

namespace FourBit

/-- What an error of a run is about. -/
inductive Blame (rom : Rom) (devices : Devices) (options : RunOptions) (result : RunResult) :
    Machine → Fault → Prop
  | turn (m : Machine) (fault : Fault)
      (alive : Machine.alive? options.policy rom devices result.steps = some m)
      (turned : m.turn rom devices = (result.machine, some (.fault fault)))
      (within : result.steps < options.maxSteps) : Blame rom devices options result m fault
  | budget (k : Nat) (m : Machine) (policy : options.policy = .selfLoop)
      (last : options.maxSteps = k + 1) (steps : result.steps = options.maxSteps)
      (alive : Machine.alive? options.policy rom devices k = some m)
      (onward : m.proceed? options.policy rom devices = some result.machine) :
      Blame rom devices options result m (stepLimitFault options.maxSteps)

theorem runWith_blame (rom : Rom) (devices : Devices) (options : RunOptions)
    (program? : Option Program) (result : RunResult) (shown : Fault)
    (ran : runWith rom devices options program? = .ok result)
    (error : result.error? = some shown) :
    ∃ (p : Progress) (m : Machine) (fault : Fault), Blame rom devices options result m fault ∧
      p.steps = result.steps ∧ p.addr = m.cpu.pc ∧ shown = p.locate program? fault := by
  have stopped := Progress.start_stopped rom devices options
  have finished := Progress.runWith_finished rom devices options program?
  rw [ran] at finished
  generalize Progress.start.iterate rom devices options options.maxSteps = outcome at *
  cases finished with
  | failed p fault =>
      cases error
      cases stopped with
      | failed _ m _ alive within turned place =>
          exact ⟨p, m, fault, .turn m fault alive turned within, rfl, place, rfl⟩
  | halted | spent => cases error
  | exceeded p running policy =>
      cases error
      cases stopped with
      | spent _ alive steps place =>
          rcases Nat.exists_eq_add_one.mpr options.positive with ⟨k, last⟩
          rw [steps, last] at alive
          rcases (orbit_succ_iff k p.machine).mp alive with ⟨m, present, onward⟩
          exact ⟨p, m, _, .budget k m policy last steps present onward, rfl,
            place k m (steps.trans last) present, rfl⟩
      | halted _ k m after _ _ _ _ _ machine =>
          have flagged : p.machine.cpu.halted = true := by rw [machine]; rfl
          cases running.symm.trans flagged

/-- Devices that always give something and never refuse anything. -/
structure Devices.Obliging (devices : Devices) : Prop where
  gives : ∀ asked, ∃ sample, devices.supplier asked = .ok sample
  hears : ∀ sink ∈ devices.sink?, ∀ values, sink values = none

namespace Machine

theorem execute_failure_obliging (devices : Devices) (obliging : devices.Obliging)
    (i : Instruction) (m left : Machine) (failure : Failure)
    (executed : execute devices i m = (left, some failure)) :
    (i.opcode = .inA ∨ i.opcode = .inB) ∧
      ∃ sample, failure = Ports.sampleFailure sample := by
  rcases execute_failure devices i m left failure executed with
    ⟨input, ports, refused⟩ | ⟨_, value, ports, refused⟩
  · refine ⟨input, ?_⟩
    rcases Ports.read_failure _ _ _ failure refused with given | ⟨sample, _, _, same⟩
    · rcases obliging.gives m.ports.asked with ⟨sample, ok⟩
      cases ok.symm.trans given
    · exact ⟨sample, same⟩
  · rcases Ports.write_failure _ _ _ value failure refused with ⟨sink, values, present, silent⟩
    cases (obliging.hears sink present values).symm.trans silent

end Machine

/-- With obliging devices the instruction to blame is an input instruction that met a sample that is
no nibble, or the last one of a budget, and then no jump to itself. -/
theorem Blame.kind {rom : Rom} {devices : Devices} {options : RunOptions} {result : RunResult}
    {m : Machine} {fault : Fault} (blame : Blame rom devices options result m fault)
    (obliging : devices.Obliging) (cell : Cell) (i : Instruction)
    (fetched : fetch rom m.cpu.pc = .ok (cell, i)) :
    (fault.kind = .inputOutOfRange ∧ (i.opcode = .inA ∨ i.opcode = .inB)) ∨
      (fault.kind = .stepLimitExceeded ∧ i.isSelfLoop m.cpu.pc m.cpu.carry = false) := by
  cases blame with
  | turn _ _ alive turned =>
      simp only [Machine.turn, fetched] at turned
      rcases Machine.execute_failure_obliging devices obliging i _ _ _ turned with
        ⟨input, sample, same⟩
      cases shown : sample.isShown with
      | true =>
          cases same.trans (Failure.showing_shown _ shown)
          exact .inl ⟨rfl, input⟩
      | false => cases same.trans (Failure.showing_hidden _ shown)
  | budget k _ policy last steps alive onward =>
      have ends := ((Machine.proceed_iff _ rom devices m _).mp onward).1
      simp only [HaltPolicy.endsAt, policy, BEq.rfl, Bool.true_and,
        Machine.spins_of_fetch rom m cell i fetched] at ends
      exact .inr ⟨rfl, ends⟩

theorem Devices.Obliging.silent {devices : Devices} (obliging : devices.Obliging)
    (failure : Failure) : ¬ devices.Raises failure := by
  intro raises
  cases raises with
  | supplier asked raised =>
      rcases obliging.gives asked with ⟨sample, ok⟩
      cases ok.symm.trans raised
  | sink sink values present raised => cases (obliging.hears sink present values).symm.trans raised

theorem RunOptions.devices_obliging (options : RunOptions) (supplier? : Option Supplier)
    (sink? : Option Sink)
    (gives : ∀ supplier ∈ supplier?, ∀ asked, ∃ sample, supplier asked = .ok sample)
    (hears : ∀ sink ∈ sink?, ∀ values, sink values = none) :
    (options.devices supplier? sink?).Obliging := by
  refine ⟨?_, hears⟩
  intro asked
  cases supplier? with
  | none => exact Supplier.replay_ok options.inputs asked
  | some supplier => exact gives supplier rfl asked

end FourBit
