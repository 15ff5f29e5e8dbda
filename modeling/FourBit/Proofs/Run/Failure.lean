import FourBit.Proofs.Machine.Failure
import FourBit.Proofs.Run.Place

namespace FourBit

/-- A fault as it was raised, with the steps before it and the address as its place. -/
structure Fault.Placed (shown raised : Fault) (steps : Nat) (addr : Int) : Prop where
  kind : shown.kind = raised.kind
  message : shown.message = raised.message
  word? : shown.word? = raised.word?
  step : shown.step = steps
  addr : shown.addr = addr

theorem Progress.locate_placed (p : Progress) (program? : Option Program) (fault : Fault) :
    (p.locate program? fault).Placed fault p.steps p.addr := by
  unfold Progress.locate
  simp only
  split <;> exact ⟨rfl, rfl, rfl, rfl, rfl⟩

/-- A run that ends in an error either failed within a step or exceeded its budget. In a step that
fails nothing is changed but the output, and that by the value which the output device refused; the
error counts the steps before it and has the address of the step. A word that is no instruction is
shown. When the budget is exceeded all its steps are done, and the error has the address of the
last one. -/
theorem error_after_completed_steps (rom : Rom) (supplier? : Option Supplier)
    (sink? : Option Sink) (options : RunOptions) (program? : Option Program) (result : RunResult)
    (shown : Fault) (ran : run rom supplier? sink? options program? = .ok result)
    (error : result.error? = some shown) :
    (∃ m fault written,
      Machine.after? rom (options.devices supplier? sink?) result.steps = some m ∧
      result.steps < options.maxSteps ∧
      m.Fails rom (options.devices supplier? sink?) (.fault fault) written ∧
      result.machine.cpu = { m.cpu with outPort := written.headD m.cpu.outPort } ∧
      result.outputs = m.ports.outputs ++ written ∧
      shown.Placed fault result.steps result.machine.cpu.pc ∧
      ∀ (addr : Nat) (byte : Fin 256), result.machine.cpu.pc = addr →
        rom.bytes[addr]? = some byte → Instruction.ofByte? byte = none →
        shown.kind = .decode ∧ shown.word? = some (byte : Int)) ∨
    (options.policy = .selfLoop ∧ result.steps = options.maxSteps ∧
      Machine.after? rom (options.devices supplier? sink?) options.maxSteps =
        some result.machine ∧
      ∃ last,
        Machine.after? rom (options.devices supplier? sink?) (options.maxSteps - 1) =
          some last ∧
        shown.Placed (stepLimitFault options.maxSteps) options.maxSteps last.cpu.pc) := by
  obtain ⟨p, m, fault, blame, steps, addr, rfl⟩ :=
    runWith_blame rom _ options program? result shown ran error
  have placed := p.locate_placed program? fault
  rw [steps, addr] at placed
  cases blame with
  | turn _ _ alive turned within =>
      apply Or.inl
      have reached := Machine.after_of_alive _ rom _ _ m alive
      have inside := Machine.after_inRange _ rom _ m reached
      obtain ⟨written, fails, leaves⟩ := Machine.turn_fails rom _ m _ _ inside turned
      have pc : result.machine.cpu.pc = m.cpu.pc := by rw [leaves.cpu]
      rw [← pc] at placed
      refine ⟨m, fault, written, reached, within, fails, leaves.cpu, leaves.outputs, placed, ?_⟩
      intro place byte here stored unassigned
      have missing := fetch_of_unassigned rom place byte stored unassigned
      rw [← here, pc] at missing
      simp only [Machine.turn, missing] at turned
      cases turned
      exact ⟨placed.kind, placed.word?⟩
  | budget k _ policy last count alive onward =>
      apply Or.inr
      have reached := Machine.after_of_alive _ rom _ _ m alive
      have moved := ((Machine.proceed_iff _ rom _ m _).mp onward).2
      have before : options.maxSteps - 1 = k := by omega
      rw [count] at placed
      rw [before]
      refine ⟨policy, count, ?_, m, reached, placed⟩
      rw [last]
      exact (orbit_succ_iff k _).mpr ⟨m, reached, moved⟩

def threeThenFive : Rom := ⟨.byte 0xB3 :: .byte 0xB5 :: List.replicate 14 (.byte 0xF0), rfl⟩

def oneValueSink : Sink := fun values =>
  if values.length = 2 then some (.fault (.plain .general "full")) else none

theorem error_after_completed_steps_refused :
    ∃ result shown m fault,
      run threeThenFive none (some oneValueSink) .standard none = .ok result ∧
      result.error? = some shown ∧ result.steps = 1 ∧
      Machine.after? threeThenFive (RunOptions.standard.devices none (some oneValueSink)) 1 =
        some m ∧
      m.Fails threeThenFive (RunOptions.standard.devices none (some oneValueSink)) (.fault fault)
        [5] ∧
      m.ports.outputs = [3] ∧ result.outputs = [3, 5] ∧
      result.machine.cpu = { m.cpu with outPort := 5 } ∧
      shown.Placed fault 1 result.machine.cpu.pc := by
  have evaluated : ∃ result shown m,
      run threeThenFive none (some oneValueSink) .standard none = .ok result ∧
      result.error? = some shown ∧ result.steps = 1 ∧ result.outputs = [3, 5] ∧
      Machine.after? threeThenFive (RunOptions.standard.devices none (some oneValueSink)) 1 =
        some m ∧ m.ports.outputs = [3] :=
    ⟨_, _, _, rfl, rfl, rfl, rfl, rfl, rfl⟩
  obtain ⟨result, shown, m, ran, error, steps, outputs, completed, before⟩ := evaluated
  rcases error_after_completed_steps threeThenFive none (some oneValueSink) .standard none result
      shown ran error with
    ⟨m', fault, written, reached, _, fails, cpu, added, placed, _⟩ | ⟨_, spent, _⟩
  · rw [steps] at reached placed
    cases completed.symm.trans reached
    rw [outputs, before] at added
    have refused : written = [5] := (List.cons.inj added).2.symm
    subst refused
    exact ⟨result, shown, m, fault, ran, error, steps, completed, fails, before, outputs, cpu,
      placed⟩
  · rw [steps] at spent
    cases spent

end FourBit
