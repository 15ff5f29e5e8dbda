import Mathlib.Data.Set.List
import FourBit.Proofs.Run.Attempts
import FourBit.Proofs.Run.Recurrence
import FourBit.Proofs.Run.SelfLoop
import FourBit.Proofs.Run.Unfailing

/-! Programs that never jump back. Each step leads to a later address, and behind the program every
word jumps to itself, so that a run which looks for such jumps halts. -/

namespace FourBit

/-- A list of words is made of instructions, and no jump among them leads to an address before its
own. It may lead to its own. -/
def ForwardWords (words : List Datum) : Prop :=
  ∀ (addr : Nat) (word : Datum), words[addr]? = some word →
    ∃ cell i, Cell.ofDatum? word = some cell ∧ Instruction.decode (cell.value : Nat) = .ok i ∧
      (i.isJump = true → addr ≤ i.operand)

structure Rom.Forward (rom : Rom) (length : Nat) : Prop where
  short : length < 16
  ahead : ∀ addr < length, ∃ cell i, fetch rom (addr : Nat) = .ok (cell, i) ∧
    (i.isJump = true → addr ≤ i.operand)
  halts : ∀ addr, length ≤ addr → addr < 16 →
    ∃ cell, fetch rom (addr : Nat) = .ok (cell, Instruction.haltAt addr)

/-- The addresses of the instructions that a run completes, in their order. -/
def executedAddrs (rom : Rom) (devices : Devices) (options : RunOptions) : List Int :=
  ((attemptsOf rom devices options).filter (·.completed)).map (·.before.cpu.pc)

theorem fetch_decoded (rom : Rom) (addr : Nat) (cell : Cell) (i : Instruction)
    (present : rom.cells[addr]? = some cell)
    (decoded : Instruction.decode (cell.value : Nat) = .ok i) : fetch rom addr = .ok (cell, i) := by
  rw [fetch_at rom addr cell present]
  rw [Instruction.decode_byte] at decoded
  cases found : Instruction.ofByte? cell.value with
  | none =>
      rw [found] at decoded
      cases decoded
  | some j =>
      rw [found] at decoded
      cases decoded
      rfl

theorem Instruction.isJump_of_taken (i : Instruction) (carry : Int)
    (taken : i.isTaken carry = true) : i.isJump = true := by
  obtain ⟨opcode, operand⟩ := i
  cases opcode with
  | jmp | jnc => rfl
  | addA | movAB | inA | movA | movBA | addB | inB | movB | outB | outIm => cases taken

namespace ForwardWords

variable {words : List Datum}

theorem cells (forward : ForwardWords words) :
    ∃ cells : List Cell, words.map Cell.ofDatum? = cells.map some := by
  have valid : words.map Cell.ofDatum? ∈ Set.range (List.map some) := by
    rw [Set.range_list_map]
    intro cell? listed
    obtain ⟨word, among, rfl⟩ := List.mem_map.mp listed
    obtain ⟨addr, present⟩ := List.getElem?_of_mem among
    obtain ⟨cell, _, read, _⟩ := forward addr word present
    exact ⟨cell, read.symm⟩
  obtain ⟨cells, same⟩ := valid
  exact ⟨cells, same.symm⟩

theorem rom_ok (forward : ForwardWords words) (short : words.length < 16) :
    ∃ rom, Rom.ofProgram words = .ok rom ∧ rom.Forward words.length := by
  obtain ⟨cells, valid⟩ := forward.cells
  have size : cells.length = words.length := by
    rw [← List.length_map some, ← valid, List.length_map]
  obtain ⟨rom, made, stored⟩ := Rom.ofProgram_ok words cells valid short.le
  refine ⟨rom, made, short, ?_, ?_⟩
  · intro addr inside
    have present := List.getElem?_eq_getElem inside
    obtain ⟨cell, i, read, decoded, ahead⟩ := forward addr _ present
    have place : (words.map Cell.ofDatum?)[addr]? = (cells.map some)[addr]? := by rw [valid]
    simp only [List.getElem?_map, present, Option.map_some, read] at place
    obtain ⟨own, kept, same⟩ := Option.map_eq_some_iff.mp place.symm
    cases same
    refine ⟨cell, i, fetch_decoded rom addr cell i ?_ decoded, ahead⟩
    rw [stored, List.getElem?_append_left (inside.trans_eq size.symm), kept]
  · intro addr beyond inside
    exact ⟨_, rom.fetch_padding cells _ size stored addr beyond inside⟩

end ForwardWords

namespace Rom.Forward

open Machine

variable {rom : Rom} {length : Nat} (forward : rom.Forward length) (devices : Devices)

include forward

theorem executable : rom.Executable := by
  intro addr low high
  obtain ⟨place, rfl⟩ := Int.eq_ofNat_of_zero_le low
  rcases Nat.lt_or_ge place length with inside | beyond
  · obtain ⟨cell, i, fetched, _⟩ := forward.ahead place inside
    exact ⟨cell, i, fetched⟩
  · obtain ⟨cell, fetched⟩ := forward.halts place beyond (Int.ofNat_lt.mp high)
    exact ⟨cell, _, fetched⟩

theorem later (m after : Machine) (onward : m.proceed? .selfLoop rom devices = some after) :
    m.cpu.pc < length ∧ m.cpu.pc < after.cpu.pc := by
  obtain ⟨running, moved⟩ := (proceed_iff .selfLoop rom devices m after).mp onward
  obtain ⟨cell, i, fetched, executed⟩ := next_fetch rom devices m after moved
  obtain ⟨low, high⟩ := fetch_bounds rom m.cpu.pc cell i fetched
  have still : ¬ (i.isTaken m.cpu.carry = true ∧ (i.operand : Int) = m.cpu.pc) := by
    rw [← isSelfLoop_iff, ← spins_of_fetch rom m cell i fetched]
    exact ne_true_of_eq_false running
  have pc := execute_pc devices i _ after executed
  obtain ⟨addr, place⟩ := Int.eq_ofNat_of_zero_le low
  simp only [place] at fetched still pc high ⊢
  rcases Nat.lt_or_ge addr length with inside | beyond
  · refine ⟨Int.ofNat_lt.mpr inside, ?_⟩
    obtain ⟨own, j, found, ahead⟩ := forward.ahead addr inside
    cases fetched.symm.trans found
    have short := forward.short
    by_cases taken : i.isTaken m.cpu.carry = true
    · have target := ahead (i.isJump_of_taken _ taken)
      rw [if_pos taken] at pc
      have other : (i.operand : Int) ≠ addr := fun same => still ⟨taken, same⟩
      omega
    · -- the next address is at most the length, so that the counter does not wrap
      rw [if_neg taken, nibble_of_range _ (by omega) (by omega)] at pc
      omega
  · obtain ⟨own, halting⟩ := forward.halts addr beyond (Int.ofNat_lt.mp high)
    cases fetched.symm.trans halting
    refine (still ⟨rfl, ?_⟩).elim
    simp only [Instruction.haltAt, Fin.ofNat]
    omega

theorem reaches (k : Nat) (m : Machine) (alive : alive? .selfLoop rom devices k = some m) :
    k ≤ length ∧ k ≤ m.cpu.pc := by
  induction k generalizing m with
  | zero =>
      cases alive
      exact ⟨Nat.zero_le _, Int.le_refl 0⟩
  | succ k ih =>
      obtain ⟨before, present, onward⟩ := (orbit_succ_iff k m).mp alive
      have earlier := (ih before present).2
      obtain ⟨inside, later⟩ := forward.later devices before m onward
      omega

theorem increasing {options : RunOptions} (policy : options.policy = .selfLoop) {budget : Nat}
    {p : Progress} {made : List Attempt} {ending : Progress × Option Failure}
    (course : Progress.Course rom devices options budget p made ending) :
    (made.map (·.before.cpu.pc)).Pairwise (· < ·) ∧
      ∀ attempt ∈ made, p.machine.cpu.pc ≤ attempt.before.cpu.pc := by
  induction course with
  | spent | halted | missed => simp
  | failed => simp
  | onward budget p q cell i after rest ending running taken stepped more ih =>
      have moved := next_of_execute rom devices p.machine after cell i stepped.fetched
        stepped.executed
      obtain ⟨q', taken', _, _, machine⟩ :=
        Progress.step_moved rom devices options p after running moved
      cases taken.symm.trans taken'
      obtain ⟨rising, above⟩ := ih
      -- A jump to itself halts the run, and nothing comes after it; any other step leads on.
      have beyond : ∀ attempt ∈ rest, p.machine.cpu.pc < attempt.before.cpu.pc := by
        rw [policy] at machine
        intro attempt listed
        cases ends : HaltPolicy.selfLoop.endsAt rom p.machine with
        | true =>
            rw [ends, if_pos rfl] at machine
            have halted : q.machine.cpu.halted = true := by
              rw [machine]
              rfl
            rw [more.nil_of_halted halted] at listed
            cases listed
        | false =>
            rw [ends, if_neg Bool.false_ne_true] at machine
            have onward := (proceed_iff .selfLoop rom devices p.machine after).mpr ⟨ends, moved⟩
            have later := (forward.later devices p.machine after onward).2
            rw [← machine] at later
            exact later.trans_le (above attempt listed)
      refine ⟨List.Pairwise.cons ?_ rising, ?_⟩
      · simpa only [List.forall_mem_map] using beyond
      · exact List.forall_mem_cons.mpr ⟨Int.le_refl _, fun attempt among => (beyond attempt among).le⟩

end Rom.Forward

theorem executedAddrs_of_run (rom : Rom) (options : RunOptions) (supplier? : Option Supplier)
    (sink? : Option Sink) (program? : Option Program) (result : RunResult)
    (ran : run rom supplier? sink? options program? = .ok result) :
    (executedAddrs rom (options.devices supplier? sink?) options).length = result.steps ∧
      (options.trace = true → result.trace.map (·.addr) =
        executedAddrs rom (options.devices supplier? sink?) options) := by
  have course := attemptsOf_course rom (options.devices supplier? sink?) options
  have finished := Progress.finished_of_run rom options supplier? sink? program? result ran
  obtain ⟨_, steps, trace⟩ := finished.ends
  constructor
  · rw [steps, course.steps, executedAddrs, List.length_map, List.countP_eq_length_filter]
    exact (Nat.zero_add _).symm
  · intro tracing
    have recorded := congrArg (List.map Prod.fst) (course.recorded tracing)
    simpa [trace, executedAddrs, Progress.start, Function.comp_def] using recorded

/-- A program of fewer than sixteen instructions, none of which jumps back, halts: with samples of
four bits, and a budget of one step more than it has instructions. It comes to later and later
addresses. -/
theorem forward_program_halts (words : List Datum) (options : RunOptions)
    (program? : Option Program) (short : words.length < 16) (forward : ForwardWords words)
    (policy : options.policy = .selfLoop) (enough : words.length + 1 ≤ options.maxSteps)
    (nibbles : ∀ input ∈ options.inputs, ∃ n, input.nibble? = some n) :
    ∃ rom result, Rom.ofProgram words = .ok rom ∧
      run rom none none options program? = .ok result ∧
      result.status = "ok" ∧ result.halted = true ∧ result.steps ≤ words.length + 1 ∧
      (executedAddrs rom (options.devices none none) options).Pairwise (· < ·) ∧
      (executedAddrs rom (options.devices none none) options).length = result.steps ∧
      (options.trace = true →
        result.trace.map (·.addr) = executedAddrs rom (options.devices none none) options) := by
  obtain ⟨rom, made, forward⟩ := forward.rom_ok short
  obtain ⟨result, ran, unfailing⟩ := runWith_unfailing rom (options.devices none none) options
    program? forward.executable (options.devices_feeding nibbles)
  have ending := run_ending rom none none options program?
  rw [show run rom none none options program? = .ok result from ran] at ending
  have course := attemptsOf_course rom (options.devices none none) options
  have rising := (forward.increasing _ policy course).1
  have completed : (executedAddrs rom (options.devices none none) options).Sublist
      ((attemptsOf rom (options.devices none none) options).map (·.before.cpu.pc)) :=
    List.filter_sublist.map _
  rcases unfailing.selfLoop policy with ⟨ok, halted⟩ | ⟨⟨fault, error, kind⟩, _⟩
  · obtain ⟨k, m, _, alive, _, _, _, _, steps⟩ := ending.of_halted halted
    rw [policy] at alive
    have within := (forward.reaches _ k m alive).1
    exact ⟨rom, result, made, ran, ok, halted, by omega, rising.sublist completed,
      executedAddrs_of_run rom options none none program? result ran⟩
  · -- a run that exceeds its budget would have come to more addresses than the program has
    have alive := ending.alive_of_stepLimit error kind
    rw [policy] at alive
    have within := (forward.reaches _ _ _ alive).1
    omega

def skipping : List Datum := [.int 0x3F, .truth true, .int 0xE2, .int 0x60, .int 0x00, .int 0xE9]

theorem skipping_forward : ForwardWords skipping := by
  intro addr word present
  rcases addr with _ | _ | _ | _ | _ | _ | addr
  all_goals cases present
  all_goals exact ⟨_, _, rfl, rfl, by decide⟩

/-- Every instruction is executed once, and then the jump to itself at the ninth address. -/
theorem forward_program_halts_skipping :
    ∃ rom result, Rom.ofProgram skipping = .ok rom ∧
      run rom none none ⟨7, by decide, .selfLoop, true, [.int 7]⟩ none = .ok result ∧
      result.status = "ok" ∧ result.halted = true ∧ result.steps = 7 ∧
      result.trace.map (·.addr) = [0, 1, 2, 3, 4, 5, 9] ∧
      (result.trace.map (·.addr)).Pairwise (· < ·) := by
  have nibbles : ∀ input ∈ [Datum.int 7], ∃ n, input.nibble? = some n :=
    List.forall_mem_singleton.mpr ⟨7, rfl⟩
  obtain ⟨rom, result, made, ran, ok, halted, _, rising, _, traced⟩ :=
    forward_program_halts skipping ⟨7, by decide, .selfLoop, true, [.int 7]⟩ none (by decide)
      skipping_forward rfl (by decide) nibbles
  have evaluated : ∃ rom result, Rom.ofProgram skipping = .ok rom ∧
      run rom none none ⟨7, by decide, .selfLoop, true, [.int 7]⟩ none = .ok result ∧
      result.steps = 7 ∧ result.trace.map (·.addr) = [0, 1, 2, 3, 4, 5, 9] :=
    ⟨_, _, rfl, rfl, rfl, rfl⟩
  obtain ⟨rom', result', made', ran', steps, addrs⟩ := evaluated
  cases made.symm.trans made'
  cases ran.symm.trans ran'
  refine ⟨rom, result, made, ran, ok, halted, steps, addrs, ?_⟩
  rw [traced rfl]
  exact rising

example : ∃ rom result, Rom.ofProgram (List.replicate 16 (.int 0)) = .ok rom ∧
    run rom none none ⟨40, by decide, .selfLoop, false, []⟩ none = .ok result ∧
    result.halted = false ∧ result.machine.cpu.pc = 8 :=
  ⟨_, _, rfl, rfl, rfl, rfl⟩

end FourBit
