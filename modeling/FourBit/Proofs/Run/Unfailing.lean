import FourBit.Proofs.Rom.Padding
import FourBit.Proofs.Run.SelfLoop
import FourBit.Proofs.Machine.Replay

namespace FourBit

def Rom.Executable (rom : Rom) : Prop :=
  ∀ addr : Int, 0 ≤ addr → addr < 16 → ∃ cell i, fetch rom addr = .ok (cell, i)

theorem Program.rom_executable (program : Program) (rom : Rom)
    (cells : rom.cells = (program.words ++ Rom.padding program.words.length).map .byte) :
    rom.Executable := by
  intro addr low high
  obtain ⟨place, rfl⟩ := Int.eq_ofNat_of_zero_le low
  cases present : program.instructions[place]? with
  | some entry => exact ⟨_, _, program.fetch_inside rom cells place entry present⟩
  | none =>
      have beyond : program.words.length ≤ place := by
        rw [Program.words, List.length_map]
        exact List.getElem?_eq_none_iff.mp present
      exact ⟨_, _, program.fetch_beyond rom cells place beyond (by omega)⟩

structure Devices.Feeding (devices : Devices) : Prop where
  gives : ∀ asked, ∃ sample n, devices.supplier asked = .ok sample ∧ sample.nibble? = some n
  silent : devices.sink? = none

theorem RunOptions.devices_feeding (options : RunOptions)
    (nibbles : ∀ input ∈ options.inputs, ∃ n, input.nibble? = some n) :
    (options.devices none none).Feeding := by
  refine ⟨?_, rfl⟩
  intro asked
  simp only [devices, Option.getD_none, Supplier.replay]
  split
  · rename_i sample found
    obtain ⟨input, listed, rfl⟩ := List.mem_map.mp (List.mem_of_getElem? found)
    obtain ⟨n, nibble⟩ := nibbles input listed
    exact ⟨input, n, rfl, nibble⟩
  · exact ⟨.int 0, 0, rfl, rfl⟩

section Unfailing

variable {rom : Rom} {devices : Devices} (executable : rom.Executable) (feeding : devices.Feeding)

include executable feeding

theorem Machine.turn_unfailing (m : Machine) (inside : m.cpu.InRange) (left : Machine)
    (failure : Failure) : m.turn rom devices ≠ (left, some failure) := by
  intro turned
  obtain ⟨cell, i, fetched⟩ := executable m.cpu.pc inside.pc.1 inside.pc.2
  simp only [turn, fetched] at turned
  rcases execute_failure devices i _ left failure turned with
    ⟨_, ports, refused⟩ | ⟨_, value, ports, refused⟩
  · obtain ⟨sample, n, given, nibble⟩ := feeding.gives m.ports.clear.asked
    rcases Ports.read_failure _ _ _ failure refused with raised | ⟨other, given', large, _⟩
    · cases given.symm.trans raised
    · cases given.symm.trans given'
      cases nibble.symm.trans large
  · obtain ⟨sink, heard, present, _⟩ := Ports.write_failure _ _ _ value failure refused
    cases feeding.silent.symm.trans present

end Unfailing

namespace RunResult

/-- How a run comes out in which no step fails. -/
structure Unfailing (result : RunResult) (options : RunOptions) : Prop where
  stepBudget : options.policy = .stepBudget →
    result.status = "ok" ∧ result.halted = false ∧ result.steps = options.maxSteps
  selfLoop : options.policy = .selfLoop →
    (result.status = "ok" ∧ result.halted = true) ∨
      ((∃ fault, result.error? = some fault ∧ fault.kind = .stepLimitExceeded) ∧
        result.steps = options.maxSteps)
  kind : ∀ fault ∈ result.error?, fault.kind = .stepLimitExceeded

end RunResult

theorem runWith_unfailing (rom : Rom) (devices : Devices) (options : RunOptions)
    (program? : Option Program) (executable : rom.Executable) (feeding : devices.Feeding) :
    ∃ result, runWith rom devices options program? = .ok result ∧ result.Unfailing options := by
  have ending := runWith_ending rom devices options program?
  generalize runWith rom devices options program? = outcome at ending ⊢
  have fails (k : Nat) (m left : Machine) (failure : Failure)
      (alive : Machine.alive? options.policy rom devices k = some m)
      (turned : m.turn rom devices = (left, some failure)) : False := by
    have inside := Machine.inRange_of_alive _ rom devices k m alive
    exact m.turn_unfailing executable feeding inside left failure turned
  cases ending with
  | spent result policy alive steps stop error =>
      have running := Machine.running_of_alive _ rom devices _ _ alive
      refine ⟨result, rfl, ?_, ?_, ?_⟩
      · intro _
        exact ⟨by simp only [RunResult.status, error], running, steps⟩
      · intro other
        cases policy.symm.trans other
      · simp [error]
  | exceeded result fault policy alive steps stop error kind =>
      refine ⟨result, rfl, ?_, ?_, ?_⟩
      · intro other
        cases policy.symm.trans other
      · intro _
        exact .inr ⟨⟨fault, error, kind⟩, steps⟩
      · simpa [error] using kind
  | halted result k m after alive within ends moved machine steps stop error =>
      have policy := HaltPolicy.selfLoop_of_endsAt ends
      have flagged : result.halted = true := by
        rw [RunResult.halted, machine]
        rfl
      refine ⟨result, rfl, ?_, ?_, ?_⟩
      · intro other
        cases policy.symm.trans other
      · intro _
        exact .inl ⟨by simp only [RunResult.status, error], flagged⟩
      · simp [error]
  | failed result m fault shown alive within turned =>
      exact (fails _ m _ _ alive turned).elim
  | broken k m left breach alive within turned =>
      exact (fails k m left _ alive turned).elim

end FourBit
