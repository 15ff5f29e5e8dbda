import Mathlib.Data.Finset.Prod
import Mathlib.Data.Finset.Card
import FourBit.Proofs.Machine.Replay
import FourBit.Proofs.Run.Ending

/-! Runs that never end. Replayed samples leave the machine finitely many cores, so that a run with
as many steps as there are cores has come back to one of them and goes round from there. -/

namespace FourBit

def RunOptions.under (options : RunOptions) (policy : HaltPolicy) (budget : Nat)
    (positive : 0 < budget) : RunOptions :=
  { options with policy := policy, maxSteps := budget, positive := positive }

/-- The number of cores: two registers, a carry, a program counter and a place among the samples. -/
def coreCount (inputs : List Datum) : Nat := 8192 * max 1 inputs.length

def below (bound : Nat) : Finset Int :=
  (Finset.range bound).map ⟨Int.ofNat, fun _ _ => Int.ofNat.inj⟩

theorem mem_below (bound : Nat) (n : Int) : n ∈ below bound ↔ 0 ≤ n ∧ n < bound := by
  simp only [below, Finset.mem_map, Finset.mem_range]
  constructor
  · intro present
    rcases present with ⟨k, small, same⟩
    rw [← same]
    exact ⟨Int.natCast_nonneg k, Int.ofNat_lt.mpr small⟩
  · intro range
    have back : Int.ofNat n.toNat = n := Int.toNat_of_nonneg range.1
    exact ⟨n.toNat, by omega, back⟩

theorem card_below (bound : Nat) : (below bound).card = bound := by
  rw [below, Finset.card_map, Finset.card_range]

namespace Machine

/-- All that decides how a machine goes on when samples are replayed. The latches and what was
written play no part. -/
def core (inputs : List Datum) (m : Machine) : Int × Int × Int × Int × Nat :=
  (m.cpu.a, m.cpu.b, m.cpu.carry, m.cpu.pc, min m.ports.asked (inputs.length - 1))

@[irreducible] def cores (inputs : List Datum) : Finset (Int × Int × Int × Int × Nat) :=
  below 16 ×ˢ below 16 ×ˢ below 2 ×ˢ below 16 ×ˢ Finset.range (max 1 inputs.length)

theorem card_cores (inputs : List Datum) : (cores inputs).card = coreCount inputs := by
  simp only [cores, Finset.card_product, card_below, Finset.card_range, coreCount]
  omega

theorem core_mem (inputs : List Datum) (m : Machine) (inside : m.cpu.InRange) :
    m.core inputs ∈ cores inputs := by
  have a := inside.a
  have b := inside.b
  have carry := inside.carry
  have pc := inside.pc
  simp only [core, cores, Finset.mem_product, mem_below, Finset.mem_range]
  omega

theorem core_eq_iff (inputs : List Datum) (x y : Machine) :
    x.core inputs = y.core inputs ↔ x.cpu.a = y.cpu.a ∧ x.cpu.b = y.cpu.b ∧
      x.cpu.carry = y.cpu.carry ∧ x.cpu.pc = y.cpu.pc ∧
      min x.ports.asked (inputs.length - 1) = min y.ports.asked (inputs.length - 1) := by
  simp only [core, Prod.mk.injEq]

theorem receive_lockstep (inputs : List Datum) (register : Register) (x y x' : Machine)
    (alike : x.core inputs = y.core inputs)
    (received : x.receive (.replaying inputs) register = (x', none)) :
    ∃ y', y.receive (.replaying inputs) register = (y', none) ∧
      x'.core inputs = y'.core inputs := by
  rcases (core_eq_iff inputs x y).mp alike with ⟨a, b, carry, pc, place⟩
  rcases receive_ok _ register x x' received with ⟨ports, value, accepted, rfl⟩
  rcases Ports.read_ok _ _ _ _ accepted with ⟨sample, n, given, nibble, rfl, rfl⟩
  have again : (Devices.replaying inputs).supplier y.ports.asked = .ok sample := by
    rw [← given]
    exact (Supplier.replay_place _ _ _ (by simpa only [List.length_map] using place)).symm
  refine ⟨_, receive_of_sample _ register y sample n again nibble, ?_⟩
  have onward : min (x.ports.asked + 1) (inputs.length - 1) =
      min (y.ports.asked + 1) (inputs.length - 1) := by omega
  apply (core_eq_iff inputs _ _).mpr
  cases register <;> simp [Cpu.set, Cpu.advance, a, b, carry, pc, onward]

theorem emit_lockstep (inputs : List Datum) (first second : Int) (x y : Machine)
    (alike : x.core inputs = y.core inputs) :
    ∃ x' y', x.emit (.replaying inputs) first = (x', none) ∧
      y.emit (.replaying inputs) second = (y', none) ∧ x'.core inputs = y'.core inputs := by
  refine ⟨_, _, rfl, rfl, ?_⟩
  rcases (core_eq_iff inputs x y).mp alike with ⟨a, b, carry, pc, place⟩
  apply (core_eq_iff inputs _ _).mpr
  simp [Cpu.advance, a, b, carry, pc, place]

theorem execute_lockstep (inputs : List Datum) (i : Instruction) (x y x' : Machine)
    (alike : x.core inputs = y.core inputs)
    (executed : execute (.replaying inputs) i x = (x', none)) :
    ∃ y', execute (.replaying inputs) i y = (y', none) ∧ x'.core inputs = y'.core inputs := by
  rcases i with ⟨opcode, operand⟩
  cases opcode with
  | inA | inB => exact receive_lockstep inputs _ x y x' alike executed
  | outB | outIm =>
      rcases emit_lockstep inputs _ _ x y alike with ⟨x'', y', first, second, same⟩
      cases executed.symm.trans first
      exact ⟨y', second, same⟩
  | jnc =>
      cases executed
      refine ⟨_, rfl, ?_⟩
      rcases (core_eq_iff inputs x y).mp alike with ⟨a, b, carry, pc, place⟩
      apply (core_eq_iff inputs _ _).mpr
      by_cases clear : y.cpu.carry = 0 <;>
        simp [Cpu.advance, Cpu.jump, a, b, carry, pc, place, clear]
  | addA | movAB | movA | movBA | addB | movB | jmp =>
      cases executed
      refine ⟨_, rfl, ?_⟩
      rcases (core_eq_iff inputs x y).mp alike with ⟨a, b, carry, pc, place⟩
      apply (core_eq_iff inputs _ _).mpr
      simp [Cpu.add, Cpu.set, Cpu.get, Cpu.advance, Cpu.jump, a, b, carry, pc, place]

theorem proceed_lockstep (policy : HaltPolicy) (rom : Rom) (inputs : List Datum)
    (x y x' : Machine) (alike : x.core inputs = y.core inputs)
    (onward : x.proceed? policy rom (.replaying inputs) = some x') :
    ∃ y', y.proceed? policy rom (.replaying inputs) = some y' ∧
      x'.core inputs = y'.core inputs := by
  rcases (proceed_iff policy rom _ x x').mp onward with ⟨ends, moved⟩
  rcases next_fetch rom _ x x' moved with ⟨cell, i, fetched, executed⟩
  rcases (core_eq_iff inputs x y).mp alike with ⟨_, _, carry, pc, _⟩
  have cleared : (⟨x.cpu, x.ports.clear⟩ : Machine).core inputs =
      (⟨y.cpu, y.ports.clear⟩ : Machine).core inputs := alike
  rcases execute_lockstep inputs i _ _ x' cleared executed with ⟨y', followed, same⟩
  have ends' : policy.endsAt rom y = false := by
    rw [← ends]
    simp only [HaltPolicy.endsAt, spins, carry, pc]
  rw [pc] at fetched
  have moved' := next_of_execute rom _ y y' cell i fetched followed
  exact ⟨y', (proceed_iff policy rom _ y y').mpr ⟨ends', moved'⟩, same⟩

/-- A run that goes on for as many steps as there are cores goes on for ever. -/
theorem alive_forever (policy : HaltPolicy) (rom : Rom) (inputs : List Datum) (last : Machine)
    (long : alive? policy rom (.replaying inputs) (coreCount inputs) = some last) (n : Nat) :
    ∃ m, alive? policy rom (.replaying inputs) n = some m := by
  have inside : ∀ k m, orbit (proceed? policy rom (.replaying inputs)) start k = some m →
      core inputs m ∈ cores inputs := by
    intro k m alive
    exact core_mem inputs m (inRange_of_alive policy rom _ k m alive)
  -- As many steps as there are cores come to one core twice, and then round and round.
  rw [← card_cores] at long
  exact orbit_unending (core inputs) (cores inputs) (proceed_lockstep policy rom inputs) inside
    last long n

end Machine

namespace Ending

open Machine

variable {rom : Rom} {options : RunOptions} {result : RunResult}

theorem alive_of_stepLimit {inputs : List Datum} {fault : Fault}
    (ending : Ending rom (.replaying inputs) options (.ok result))
    (error : result.error? = some fault) (kind : fault.kind = .stepLimitExceeded) :
    alive? options.policy rom (.replaying inputs) options.maxSteps = some result.machine := by
  cases ending with
  | spent _ policy alive => exact alive
  | exceeded _ fault' policy alive => exact alive
  | halted _ k m after alive within ends moved machine steps stop sound =>
      cases sound.symm.trans error
  | failed _ m fault' shown alive within turned stop error' kind' =>
      have inside := inRange_of_alive _ rom _ _ m alive
      rcases turn_fails_replaying rom inputs m _ _ inside turned with
        ⟨own, same, reason⟩ | ⟨impossible, _⟩
      · cases same
        cases error'.symm.trans error
        rw [← kind', kind] at reason
        rcases reason with decode | range
        · cases decode
        · cases range
      · cases impossible

theorem alive_of_ok {devices : Devices} (ending : Ending rom devices options (.ok result))
    (policy : options.policy = .stepBudget) (sound : result.status = "ok") :
    alive? options.policy rom devices options.maxSteps = some result.machine := by
  have clean : result.error? = none := by
    cases error : result.error? with
    | none => rfl
    | some fault => simp [RunResult.status, error] at sound
  cases ending with
  | spent _ policy' alive => exact alive
  | exceeded _ fault policy' alive => exact alive
  | halted _ k m after alive within ends =>
      rw [policy] at ends
      cases ends
  | failed _ m fault shown alive within turned stop error =>
      cases error.symm.trans clean

end Ending

theorem coreCount_pos (inputs : List Datum) : 0 < coreCount inputs := by
  unfold coreCount
  omega

/-- A budget of as many steps as there are cores decides about all larger ones: a run that exceeds
it never halts and never fails, and a run that spends it without an error can spend any other. -/
theorem budget_decides (rom : Rom) (options : RunOptions) (program? : Option Program) (budget : Nat)
    (larger : coreCount options.inputs ≤ budget) :
    ((∃ result fault,
        run rom none none
          (options.under .selfLoop (coreCount options.inputs) (coreCount_pos options.inputs))
          program? = .ok result ∧
        result.error? = some fault ∧ fault.kind = .stepLimitExceeded) →
      ∃ result fault,
        run rom none none
          (options.under .selfLoop budget
            (Nat.lt_of_lt_of_le (coreCount_pos options.inputs) larger))
          program? = .ok result ∧
        result.halted = false ∧ result.stop = .error ∧
        result.error? = some fault ∧ fault.kind = .stepLimitExceeded) ∧
    ((∃ result,
        run rom none none
          (options.under .stepBudget (coreCount options.inputs) (coreCount_pos options.inputs))
          program? = .ok result ∧
        result.status = "ok") →
      ∃ result,
        run rom none none
          (options.under .stepBudget budget
            (Nat.lt_of_lt_of_le (coreCount_pos options.inputs) larger))
          program? = .ok result ∧
        result.status = "ok") := by
  have positive := Nat.lt_of_lt_of_le (coreCount_pos options.inputs) larger
  have ending (policy : HaltPolicy) (steps : Nat) (enough : 0 < steps) :
      Ending rom (.replaying options.inputs) (options.under policy steps enough)
        (run rom none none (options.under policy steps enough) program?) :=
    run_ending rom none none (options.under policy steps enough) program?
  constructor
  · intro given
    rcases given with ⟨short, fault, ran, error, kind⟩
    have finished := ending .selfLoop (coreCount options.inputs) (coreCount_pos options.inputs)
    rw [ran] at finished
    have alive := finished.alive_of_stepLimit error kind
    rcases Machine.alive_forever .selfLoop rom options.inputs _ alive budget with ⟨m, onward⟩
    rcases (ending .selfLoop budget positive).of_alive m onward with
      ⟨long, ran', machine, _, _, limit⟩
    rcases limit rfl with ⟨stop, fault', error', kind'⟩
    have reached := Machine.after_of_alive .selfLoop rom _ budget m onward
    have running := Machine.after_running _ rom budget m reached
    refine ⟨long, fault', ran', ?_, stop, error', kind'⟩
    rw [RunResult.halted, machine]
    exact running
  · intro given
    rcases given with ⟨short, ran, status⟩
    have finished := ending .stepBudget (coreCount options.inputs) (coreCount_pos options.inputs)
    rw [ran] at finished
    have alive := finished.alive_of_ok rfl status
    rcases Machine.alive_forever .stepBudget rom options.inputs _ alive budget with ⟨m, onward⟩
    rcases (ending .stepBudget budget positive).of_alive m onward with ⟨long, ran', _, _, sound, _⟩
    refine ⟨long, ran', ?_⟩
    simp only [RunResult.status, sound rfl]

def pingPong : Rom := ⟨.byte 0xF1 :: List.replicate 15 (.byte 0xF0), rfl⟩

theorem pingPong_alive (policy : HaltPolicy) (n : Nat) :
    ∃ m, Machine.alive? policy pingPong (.replaying []) n = some m ∧
      (m = Machine.start ∨ m = ⟨{ Cpu.start with pc := 1 }, Ports.start⟩) := by
  induction n with
  | zero => exact ⟨Machine.start, rfl, .inl rfl⟩
  | succ n ih =>
      rcases ih with ⟨m, alive, home | away⟩
      · subst home
        refine ⟨_, (orbit_succ_iff n _).mpr ⟨_, alive, ?_⟩, .inr rfl⟩
        cases policy <;> rfl
      · subst away
        refine ⟨_, (orbit_succ_iff n _).mpr ⟨_, alive, ?_⟩, .inl rfl⟩
        cases policy <;> rfl

theorem budget_decides_pingPong :
    (∃ result fault,
      run pingPong none none (RunOptions.standard.under .selfLoop 1000000 (by decide)) none =
        .ok result ∧
      result.halted = false ∧ result.stop = .error ∧
      result.error? = some fault ∧ fault.kind = .stepLimitExceeded) ∧
    ∃ result,
      run pingPong none none (RunOptions.standard.under .stepBudget 1000000 (by decide)) none =
        .ok result ∧
      result.status = "ok" := by
  have decided := budget_decides pingPong RunOptions.standard none 1000000 (by decide)
  constructor
  · apply decided.1
    rcases pingPong_alive .selfLoop (coreCount []) with ⟨m, alive, _⟩
    obtain ⟨result, ran, _, _, _, limit⟩ :=
      (run_ending pingPong none none
        (RunOptions.standard.under .selfLoop (coreCount []) (coreCount_pos []))
        none).of_alive m alive
    rcases limit rfl with ⟨_, fault, error, kind⟩
    exact ⟨result, fault, ran, error, kind⟩
  · apply decided.2
    rcases pingPong_alive .stepBudget (coreCount []) with ⟨m, alive, _⟩
    obtain ⟨result, ran, _, _, sound, _⟩ :=
      (run_ending pingPong none none
        (RunOptions.standard.under .stepBudget (coreCount []) (coreCount_pos [])) none).of_alive
        m alive
    exact ⟨result, ran, by simp only [RunResult.status, sound rfl]⟩

end FourBit
