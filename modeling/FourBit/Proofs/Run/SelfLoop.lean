import FourBit.Proofs.Run.Ending

/-! Jumps to themselves: a run that looks for them halts with the first step that leaves the
processor as it was, and a run that does not look for them stays there until its budget is spent. -/

namespace FourBit

namespace Machine

/-- A step, counted from one, that is executed and leaves all registers as they were. -/
def IdleStep (rom : Rom) (devices : Devices) (n : Nat) : Prop :=
  ∃ k before after, n = k + 1 ∧ after? rom devices k = some before ∧
    after? rom devices n = some after ∧ after.cpu.registers = before.cpu.registers

variable (rom : Rom) (devices : Devices)

theorem isSelfLoop_iff (i : Instruction) (addr carry : Int) :
    i.isSelfLoop addr carry = true ↔ i.isTaken carry = true ∧ (i.operand : Int) = addr := by
  rcases i with ⟨opcode, operand⟩
  cases opcode <;>
    simp [Instruction.isSelfLoop, Instruction.isJump, Opcode.isJump, Instruction.isTaken, and_comm]

theorem execute_selfLoop (i : Instruction) (m : Machine)
    (loops : i.isSelfLoop m.cpu.pc m.cpu.carry = true) : execute devices i m = (m, none) := by
  rcases (isSelfLoop_iff i m.cpu.pc m.cpu.carry).mp loops with ⟨taken, here⟩
  rw [execute_taken devices i m taken, here]

/-- The syntactic test for a jump to itself tells whether the step changes a register. -/
theorem registers_eq_iff_spins (m after : Machine) (moved : m.next? rom devices = some after) :
    after.cpu.registers = m.cpu.registers ↔ m.spins rom = true := by
  rcases next_fetch rom devices m after moved with ⟨cell, i, fetched, executed⟩
  have bounds := fetch_bounds rom m.cpu.pc cell i fetched
  rw [spins_of_fetch rom m cell i fetched]
  constructor
  · intro same
    have pc : after.cpu.pc = m.cpu.pc := congrArg Registers.pc same
    rw [execute_pc devices i _ after executed] at pc
    by_cases taken : i.isTaken m.cpu.carry = true
    · simp only [taken, if_true] at pc
      exact (isSelfLoop_iff i _ _).mpr ⟨taken, pc⟩
    · -- of sixteen addresses the next one is never the same
      simp only [taken, Bool.false_eq_true, if_false, nibble] at pc
      omega
  · intro loops
    rw [execute_selfLoop devices i ⟨m.cpu, m.ports.clear⟩ loops] at executed
    cases executed
    rfl

theorem next_of_spins (m after : Machine) (moved : m.next? rom devices = some after)
    (spinning : m.spins rom = true) : after.next? rom devices = some after := by
  rcases next_fetch rom devices m after moved with ⟨cell, i, fetched, executed⟩
  rw [spins_of_fetch rom m cell i fetched] at spinning
  rw [execute_selfLoop devices i ⟨m.cpu, m.ports.clear⟩ spinning] at executed
  cases executed
  exact next_of_execute rom devices _ _ cell i fetched (execute_selfLoop devices i _ spinning)

theorem idleStep_iff (k : Nat) (m after : Machine) (present : after? rom devices k = some m)
    (moved : m.next? rom devices = some after) :
    IdleStep rom devices (k + 1) ↔ m.spins rom = true := by
  have reached := (orbit_succ_iff k after).mpr ⟨m, present, moved⟩
  rw [← registers_eq_iff_spins rom devices m after moved]
  constructor
  · intro given
    rcases given with ⟨j, before, later, number, atBefore, atLater, same⟩
    cases Nat.succ.inj number
    cases present.symm.trans atBefore
    cases reached.symm.trans atLater
    exact same
  · intro same
    exact ⟨k, m, after, rfl, present, reached, same⟩

theorem endsAt_selfLoop (m : Machine) : HaltPolicy.selfLoop.endsAt rom m = m.spins rom := rfl

theorem alive_stepBudget (n : Nat) :
    alive? .stepBudget rom devices n = after? rom devices n := rfl

theorem not_idle_of_alive (n : Nat) (q : Machine) (alive : alive? .selfLoop rom devices n = some q)
    (k : Nat) (within : k ≤ n) : ¬ IdleStep rom devices k := by
  cases k with
  | zero =>
      intro given
      rcases given with ⟨j, _, _, number, _⟩
      cases number
  | succ k =>
      rcases orbit_earlier k n q alive (Nat.le_of_succ_le within) with ⟨m, present⟩
      rcases orbit_step k n m q present alive within with ⟨after, onward, _⟩
      rcases (proceed_iff _ rom devices m after).mp onward with ⟨ends, moved⟩
      rw [endsAt_selfLoop] at ends
      rw [idleStep_iff rom devices k m after (after_of_alive _ rom devices k m present) moved, ends]
      decide

theorem alive_of_not_idle (n : Nat) (m : Machine) (reached : after? rom devices n = some m)
    (busy : ∀ k ≤ n, ¬ IdleStep rom devices k) : alive? .selfLoop rom devices n = some m := by
  induction n generalizing m with
  | zero => exact reached
  | succ n ih =>
      rcases (orbit_succ_iff n m).mp reached with ⟨before, present, moved⟩
      have alive := ih before present (fun k within => busy k (Nat.le_succ_of_le within))
      have awake := busy (n + 1) (Nat.le_refl _)
      rw [idleStep_iff rom devices n before m present moved, Bool.not_eq_true] at awake
      exact (orbit_succ_iff n m).mpr
        ⟨before, alive, (proceed_iff _ rom devices before m).mpr ⟨awake, moved⟩⟩

end Machine

namespace Ending

open Machine

variable {rom : Rom} {devices : Devices} {options : RunOptions}

theorem of_halted {result : RunResult} (ending : Ending rom devices options (.ok result))
    (halted : result.halted = true) :
    ∃ k m after, alive? options.policy rom devices k = some m ∧ k < options.maxSteps ∧
      options.policy.endsAt rom m = true ∧ m.next? rom devices = some after ∧
      result.machine = after.halt ∧ result.steps = k + 1 := by
  have running := running_of_alive options.policy rom devices
  cases ending with
  | spent _ policy alive steps stop error =>
      cases (running _ _ alive).symm.trans halted
  | exceeded _ fault policy alive steps stop error kind =>
      cases (running _ _ alive).symm.trans halted
  | halted _ k m after alive within ends moved machine steps stop error =>
      exact ⟨k, m, after, alive, within, ends, moved, machine, steps⟩
  | failed _ m fault shown alive within turned stop error kind =>
      have kept := turn_halted devices rom m
      rw [turned, running _ _ alive] at kept
      cases kept.symm.trans halted

theorem of_endsAt {outcome : Except Breach RunResult} (ending : Ending rom devices options outcome)
    (k : Nat) (m after : Machine) (alive : alive? options.policy rom devices k = some m)
    (within : k < options.maxSteps) (ends : options.policy.endsAt rom m = true)
    (moved : m.next? rom devices = some after) :
    ∃ result, outcome = .ok result ∧ result.halted = true ∧ result.steps = k + 1 := by
  have stuck := proceed_none_of_ends options.policy rom devices m ends
  have goesOn (left : Machine) (failure : Failure) :
      ¬ m.turn rom devices = (left, some failure) := by
    intro turned
    rw [(next_iff rom devices m after).mp moved] at turned
    cases turned
  cases ending with
  | spent result policy last steps stop error =>
      have early := orbit_stuck k _ m _ alive stuck last
      omega
  | exceeded result fault policy last steps stop error kind =>
      have early := orbit_stuck k _ m _ alive stuck last
      omega
  | halted result j m' after' last within' ends' moved' machine steps stop error =>
      have stuck' := proceed_none_of_ends options.policy rom devices m' ends'
      rcases orbit_end_unique k j m m' alive stuck last stuck' with ⟨same, _⟩
      subst same
      refine ⟨result, rfl, ?_, steps⟩
      rw [RunResult.halted, machine]
      rfl
  | failed result m' fault shown last within' turned stop error kind =>
      have stuck' := proceed_none_of_turn options.policy rom devices m' _ _ turned
      rcases orbit_end_unique k _ m m' alive stuck last stuck' with ⟨_, rfl⟩
      cases goesOn _ _ turned
  | broken j m' left breach last within' turned =>
      have stuck' := proceed_none_of_turn options.policy rom devices m' _ _ turned
      rcases orbit_end_unique k j m m' alive stuck last stuck' with ⟨_, rfl⟩
      cases goesOn _ _ turned

end Ending

/-- Under the policy that looks for jumps to themselves, a run halts exactly at its first idle step.
Without that policy, a run of at least as many steps ends well in the same registers, with the same
outputs and without another question to the input device. -/
theorem halts_iff_first_idle_step (rom : Rom) (supplier? : Option Supplier) (sink? : Option Sink)
    (options : RunOptions) (program? : Option Program) (n : Nat) :
    ((∃ result, run rom supplier? sink? { options with policy := .selfLoop } program? = .ok result ∧
        result.halted = true ∧ result.steps = n) ↔
      n ≤ options.maxSteps ∧ Machine.IdleStep rom (options.devices supplier? sink?) n ∧
        ∀ k < n, ¬ Machine.IdleStep rom (options.devices supplier? sink?) k) ∧
    ∀ result,
      run rom supplier? sink? { options with policy := .selfLoop } program? = .ok result →
      result.halted = true → ∀ (budget : Nat) (positive : 0 < budget), result.steps ≤ budget →
      ∃ longer, run rom supplier? sink?
          { options with policy := .stepBudget, maxSteps := budget, positive := positive }
          program? = .ok longer ∧
        longer.status = "ok" ∧
        longer.machine.cpu.registers = result.machine.cpu.registers ∧
        longer.outputs = result.outputs ∧
        longer.machine.ports.asked = result.machine.ports.asked := by
  have ending := run_ending rom supplier? sink? { options with policy := .selfLoop } program?
  constructor
  · constructor
    · intro given
      rcases given with ⟨result, ran, halted, rfl⟩
      rw [ran] at ending
      rcases ending.of_halted halted with ⟨k, m, after, alive, within, ends, moved, _, steps⟩
      have present := Machine.after_of_alive _ rom _ k m alive
      rw [steps]
      refine ⟨within, (Machine.idleStep_iff rom _ k m after present moved).mpr ends, ?_⟩
      intro j before
      exact Machine.not_idle_of_alive rom _ k m alive j (Nat.le_of_lt_succ before)
    · intro given
      rcases given with ⟨within, idle, first⟩
      rcases idle with ⟨k, m, after, rfl, present, reached, same⟩
      rcases (orbit_succ_iff k after).mp reached with ⟨m', present', moved⟩
      cases present.symm.trans present'
      -- No step before has been idle, so that nothing has ended the run before this one.
      have alive := Machine.alive_of_not_idle rom _ k m present
        (fun j inside => first j (Nat.lt_succ_of_le inside))
      exact ending.of_endsAt k m after alive within
        ((Machine.registers_eq_iff_spins rom _ m after moved).mp same) moved
  · intro result ran halted budget positive enough
    rw [ran] at ending
    rcases ending.of_halted halted with ⟨k, m, after, alive, _, ends, moved, machine, steps⟩
    have present := Machine.after_of_alive _ rom _ k m alive
    have reached := (orbit_succ_iff k after).mpr ⟨m, present, moved⟩
    -- Under the other policy the machine goes on from there, but it stands still.
    have resting := orbit_rest (k + 1) budget after reached
      (Machine.next_of_spins rom _ m after moved ends) (steps ▸ enough)
    have lasting := (Machine.alive_stepBudget rom _ budget).trans resting
    rcases (run_ending rom supplier? sink?
        { options with policy := .stepBudget, maxSteps := budget, positive := positive }
        program?).of_alive after lasting with
      ⟨longer, finished, same, _, sound, _⟩
    have status : longer.status = "ok" := by simp only [RunResult.status, sound rfl]
    refine ⟨longer, finished, status, ?_, ?_, ?_⟩
    · rw [same, machine]
      rfl
    · rw [RunResult.outputs, RunResult.outputs, same, machine]
      rfl
    · rw [same, machine]
      rfl

def fallThrough : Rom :=
  ⟨[.byte 0x20, .byte 0x01, .byte 0xE2, .byte 0x00, .byte 0xB5, .byte 0xE5] ++
    List.replicate 10 (.byte 0x80), rfl⟩

def fallThroughOptions : RunOptions := ⟨8, by decide, .selfLoop, false, [.int 15]⟩

theorem halts_iff_first_idle_step_fallThrough :
    Machine.IdleStep fallThrough (fallThroughOptions.devices none none) 6 ∧
    (∀ k < 6, ¬ Machine.IdleStep fallThrough (fallThroughOptions.devices none none) k) ∧
    ∃ result longer,
      run fallThrough none none fallThroughOptions none = .ok result ∧
      result.halted = true ∧ result.steps = 6 ∧ result.outputs = [5] ∧
      run fallThrough none none
        { fallThroughOptions with policy := .stepBudget, maxSteps := 20, positive := by decide }
        none = .ok longer ∧
      longer.status = "ok" ∧ longer.machine.cpu.registers = result.machine.cpu.registers ∧
      longer.outputs = result.outputs ∧
      longer.machine.ports.asked = result.machine.ports.asked := by
  have main := halts_iff_first_idle_step fallThrough none none fallThroughOptions none 6
  have evaluated : ∃ result, run fallThrough none none fallThroughOptions none = .ok result ∧
      result.halted = true ∧ result.steps = 6 ∧ result.outputs = [5] := ⟨_, rfl, rfl, rfl, rfl⟩
  rcases evaluated with ⟨result, ran, halted, steps, outputs⟩
  rcases main.1.mp ⟨result, ran, halted, steps⟩ with ⟨_, idle, first⟩
  obtain ⟨longer, ran', status, same⟩ :=
    main.2 result ran halted 20 (by decide) (by rw [steps]; decide)
  exact ⟨idle, first, result, longer, ran, halted, steps, outputs, ran', status, same⟩

end FourBit
