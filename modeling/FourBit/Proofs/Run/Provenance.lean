import FourBit.Proofs.Machine.Failure
import FourBit.Proofs.Run.Attempts
import FourBit.Proofs.Run.Range

/-! Where the carry and the input latch come from: the last completed sum and the last completed
input, whatever other instructions came after them, and whether or not they failed. -/

namespace FourBit

namespace Instruction

def adds? (i : Instruction) : Option Register :=
  match i.opcode with
  | .addA => some .a
  | .addB => some .b
  | _ => none

def isSum (i : Instruction) : Bool := i.adds?.isSome

def overflows (i : Instruction) (cpu : Cpu) : Bool :=
  i.adds?.any fun register => cpu.get register + i.operand > 15

end Instruction

def Attempt.overflows (attempt : Attempt) : Bool :=
  attempt.instruction.overflows attempt.before.cpu

def lastCompleted? (sort : Instruction → Bool) (past : List Attempt) : Option Attempt :=
  (past.filter fun attempt => attempt.completed && sort attempt.instruction).getLast?

def carryAfter (past : List Attempt) : Int :=
  if (lastCompleted? Instruction.isSum past).any (·.overflows) then 1 else 0

/-- What an input instruction finds in the input latch when it has been completed: the nibble of the
sample that it asked for. -/
def Attempt.Accepted (devices : Devices) (attempt : Attempt) (value : Int) : Prop :=
  ∃ sample n, devices.supplier attempt.before.ports.asked = .ok sample ∧
    sample.nibble? = some n ∧ value = (n : Int)

/-- The carry and the input latch of a machine are those of the last completed sum and the last
completed input among some attempts. -/
structure Machine.StemsFrom (devices : Devices) (m : Machine) (past : List Attempt) : Prop where
  carry : m.cpu.carry = carryAfter past
  input : ∀ attempt ∈ lastCompleted? Instruction.isInput past,
    attempt.Accepted devices m.cpu.inPort
  noInput : lastCompleted? Instruction.isInput past = none → m.cpu.inPort = 0

theorem lastCompleted_concat (sort : Instruction → Bool) (past : List Attempt)
    (attempt : Attempt) :
    lastCompleted? sort (past ++ [attempt]) =
      if attempt.completed && sort attempt.instruction then some attempt
      else lastCompleted? sort past := by
  unfold lastCompleted?
  rw [List.filter_append]
  cases matching : attempt.completed && sort attempt.instruction with
  | true =>
      simp only [List.filter_cons, matching, if_true, List.filter_nil, List.getLast?_concat]
  | false =>
      simp only [List.filter_cons, matching, Bool.false_eq_true, if_false, List.filter_nil,
        List.append_nil]

namespace Machine

variable (devices : Devices)

theorem execute_carry (i : Instruction) (m : Machine) :
    (execute devices i m).1.cpu.carry =
      if i.isSum then (if i.overflows m.cpu then 1 else 0) else m.cpu.carry := by
  obtain ⟨opcode, operand⟩ := i
  cases opcode with
  | addA | addB => simp [execute, Instruction.isSum, Instruction.adds?, Instruction.overflows,
      Cpu.add, Cpu.advance]
  | inA | inB =>
      simp only [execute, receive]
      split <;> rfl
  | outB | outIm =>
      simp only [execute, emit]
      split <;> rfl
  | jnc =>
      simp only [execute]
      split <;> rfl
  | movAB | movA | movBA | movB | jmp => rfl

theorem execute_inPort (i : Instruction) (m : Machine) (other : i.isInput = false) :
    (execute devices i m).1.cpu.inPort = m.cpu.inPort := by
  obtain ⟨opcode, operand⟩ := i
  cases opcode with
  | inA | inB => cases other
  | outB | outIm =>
      simp only [execute, emit]
      split <;> rfl
  | jnc =>
      simp only [execute]
      split <;> rfl
  | addA | movAB | movA | movBA | addB | movB | jmp => rfl

theorem execute_accepted (i : Instruction) (m after : Machine) (input : i.isInput = true)
    (executed : execute devices i ⟨m.cpu, m.ports.clear⟩ = (after, none)) :
    Attempt.Accepted devices ⟨m, i, true⟩ after.cpu.inPort := by
  obtain ⟨register, reads⟩ := Option.isSome_iff_exists.mp input
  rw [execute_input devices i _ register reads] at executed
  obtain ⟨ports, value, accepted, rfl⟩ := receive_ok devices register _ after executed
  obtain ⟨sample, n, given, nibble, rfl, _⟩ := Ports.read_ok _ _ _ _ accepted
  refine ⟨sample, n, given, nibble, ?_⟩
  cases register <;> rfl

theorem execute_failed_latches (i : Instruction) (m left : Machine) (failure : Failure)
    (executed : execute devices i m = (left, some failure)) :
    left.cpu.carry = m.cpu.carry ∧ left.cpu.inPort = m.cpu.inPort := by
  obtain ⟨opcode, operand⟩ := i
  cases opcode with
  | inA | inB =>
      obtain ⟨_, leaves⟩ := receive_failed devices _ m left failure executed
      rw [leaves.cpu]
      exact ⟨rfl, rfl⟩
  | outB | outIm =>
      simp only [execute, emit] at executed
      split at executed
      · cases executed
      · cases executed
        exact ⟨rfl, rfl⟩
  | addA | movAB | movA | movBA | addB | movB | jmp | jnc => cases executed

theorem start_stems : start.StemsFrom devices [] :=
  ⟨rfl, by rintro _ ⟨⟩, fun _ => rfl⟩

theorem StemsFrom.completed {m after : Machine} {past : List Attempt} {i : Instruction}
    (stems : m.StemsFrom devices past)
    (executed : execute devices i ⟨m.cpu, m.ports.clear⟩ = (after, none)) :
    after.StemsFrom devices (past ++ [⟨m, i, true⟩]) := by
  have carry := execute_carry devices i ⟨m.cpu, m.ports.clear⟩
  rw [executed] at carry
  constructor
  · unfold carryAfter
    rw [lastCompleted_concat]
    cases sum : i.isSum with
    | true =>
        rw [sum, if_pos rfl] at carry
        exact carry
    | false =>
        rw [sum] at carry
        exact carry.trans stems.carry
  · rw [lastCompleted_concat]
    cases input : i.isInput with
    | true =>
        rintro _ ⟨⟩
        exact execute_accepted devices i m after input executed
    | false =>
        have latch := execute_inPort devices i ⟨m.cpu, m.ports.clear⟩ input
        rw [executed] at latch
        rw [latch]
        exact stems.input
  · rw [lastCompleted_concat]
    cases input : i.isInput with
    | true => rintro ⟨⟩
    | false =>
        have latch := execute_inPort devices i ⟨m.cpu, m.ports.clear⟩ input
        rw [executed] at latch
        rw [latch]
        exact stems.noInput

theorem StemsFrom.failed {m left : Machine} {past : List Attempt} {i : Instruction}
    {failure : Failure} (stems : m.StemsFrom devices past)
    (executed : execute devices i ⟨m.cpu, m.ports.clear⟩ = (left, some failure)) :
    left.StemsFrom devices (past ++ [⟨m, i, false⟩]) := by
  have latches := execute_failed_latches devices i _ left failure executed
  constructor
  · unfold carryAfter
    rw [lastCompleted_concat, latches.1]
    exact stems.carry
  · rw [lastCompleted_concat, latches.2]
    exact stems.input
  · rw [lastCompleted_concat, latches.2]
    exact stems.noInput

end Machine

/-- Sums so far, not the machine, decide where a conditional jump goes. -/
theorem Attempt.jnc_goes (devices : Devices) (attempt : Attempt) (past : List Attempt)
    (stems : attempt.before.StemsFrom devices past) (jump : attempt.instruction.opcode = .jnc) :
    attempt.outcome devices = (attempt.left devices, none) ∧
      (attempt.left devices).cpu.pc =
        if (lastCompleted? Instruction.isSum past).any (·.overflows)
        then nibble (attempt.before.cpu.pc + 1) else (attempt.instruction.operand : Int) := by
  obtain ⟨before, ⟨opcode, operand⟩, completed⟩ := attempt
  cases jump
  have carry : before.cpu.carry = carryAfter past := stems.carry
  have goes : (left devices ⟨before, ⟨.jnc, operand⟩, completed⟩).cpu.pc = _ :=
    Machine.execute_pc devices ⟨.jnc, operand⟩ ⟨before.cpu, before.ports.clear⟩ _ rfl
  have taken : Instruction.isTaken ⟨.jnc, operand⟩ before.cpu.carry = (before.cpu.carry == 0) := rfl
  refine ⟨rfl, ?_⟩
  rw [goes, taken, carry, carryAfter]
  cases (lastCompleted? Instruction.isSum past).any (·.overflows) <;> rfl

namespace Progress.Course

variable {rom : Rom} {devices : Devices} {options : RunOptions} {budget : Nat} {p : Progress}
  {made : List Attempt} {ending : Progress × Option Failure}

theorem stems (course : Course rom devices options budget p made ending)
    (base : p.machine.StemsFrom devices []) :
    ending.1.machine.StemsFrom devices made ∧
      ∀ before attempt after, made = before ++ attempt :: after →
        attempt.before.StemsFrom devices before := by
  apply course.keeps (fun past m => m.StemsFrom devices past) _ _ [] base
  · intro past p q cell i after kept stepped
    have later := kept.completed devices stepped.executed
    refine ⟨?_, ?_, ?_⟩
    · rw [stepped.cpu]
      exact later.carry
    · rw [stepped.cpu]
      exact later.input
    · rw [stepped.cpu]
      exact later.noInput
  · intro past m left i failure kept executed
    exact kept.failed devices executed

end Progress.Course

/-- Whatever the devices do, the carry is one just if the last completed sum went beyond fifteen,
and the input latch holds what the last completed input accepted, or zero: after any number of
steps, before each instruction that a run comes to and in its result. So a conditional jump goes on
to the next place after such a sum, and else to its target. The steps and the rows of a trace are
the completed instructions. -/
theorem latches_of_last_completed (rom : Rom) (supplier? : Option Supplier) (sink? : Option Sink)
    (options : RunOptions) (program? : Option Program) :
    (∀ budget,
      (Progress.start.iterate rom (options.devices supplier? sink?) options
          budget).1.machine.StemsFrom (options.devices supplier? sink?)
        (Progress.start.attempts rom (options.devices supplier? sink?) options budget)) ∧
    (∀ before attempt after,
      attemptsOf rom (options.devices supplier? sink?) options = before ++ attempt :: after →
      attempt.before.StemsFrom (options.devices supplier? sink?) before ∧
      (attempt.instruction.opcode = .jnc → attempt.completed = true ∧
        (attempt.left (options.devices supplier? sink?)).cpu.pc =
          if (lastCompleted? Instruction.isSum before).any (·.overflows)
          then nibble (attempt.before.cpu.pc + 1) else (attempt.instruction.operand : Int))) ∧
    ∀ result, run rom supplier? sink? options program? = .ok result →
      result.machine.StemsFrom (options.devices supplier? sink?)
        (attemptsOf rom (options.devices supplier? sink?) options) ∧
      result.steps =
        (attemptsOf rom (options.devices supplier? sink?) options).countP (·.completed) ∧
      (options.trace = true → result.trace.map (fun row => (row.addr, row.instruction)) =
        ((attemptsOf rom (options.devices supplier? sink?) options).filter (·.completed)).map
          fun attempt => (attempt.before.cpu.pc, attempt.instruction)) := by
  have course := attemptsOf_course rom (options.devices supplier? sink?) options
  have start := Machine.start_stems (options.devices supplier? sink?)
  refine ⟨?_, ?_, ?_⟩
  · intro budget
    exact ((Progress.iterate_course rom _ options budget .start).stems start).1
  · intro before attempt after split
    have stems := (course.stems start).2 before attempt after split
    refine ⟨stems, ?_⟩
    intro jump
    obtain ⟨completed, goes⟩ := attempt.jnc_goes _ before stems jump
    have listed : attempt ∈ attemptsOf rom (options.devices supplier? sink?) options := by
      simp [split]
    refine ⟨?_, goes⟩
    rw [(course.outcomes attempt listed).2, completed]
    rfl
  · intro result ran
    have finished := Progress.finished_of_run rom options supplier? sink? program? result ran
    obtain ⟨machine, steps, trace⟩ := finished.ends
    refine ⟨?_, ?_, ?_⟩
    · rw [machine]
      exact (course.stems start).1
    · rw [steps, course.steps]
      exact Nat.zero_add _
    · intro tracing
      rw [trace]
      exact course.recorded tracing

def sumThenReads : Rom :=
  ⟨[.byte 0x39, .byte 0x09, .byte 0x71, .byte 0xE0, .byte 0x20, .byte 0x60] ++
    List.replicate 10 (.byte 0xF0), rfl⟩

/-- The carry of the sum lets the jump go on, and outlasts the inputs; the second input fails, and
the latch keeps the sample of the first. -/
theorem latches_of_last_completed_sumThenReads :
    ∃ result before jump input refused,
      run sumThenReads (some rogueSupplier) none .standard none = .ok result ∧
      attemptsOf sumThenReads (RunOptions.standard.devices (some rogueSupplier) none) .standard =
        before ++ jump :: [input, refused] ∧
      jump.instruction.opcode = .jnc ∧ jump.completed = true ∧
      (jump.left (RunOptions.standard.devices (some rogueSupplier) none)).cpu.pc = 4 ∧
      result.error?.isSome = true ∧ result.steps = 5 ∧ result.machine.cpu.carry = 1 ∧
      input.Accepted (RunOptions.standard.devices (some rogueSupplier) none)
        result.machine.cpu.inPort := by
  have evaluated : ∃ result loaded sum move jump input refused,
      run sumThenReads (some rogueSupplier) none .standard none = .ok result ∧
      result.error?.isSome = true ∧
      attemptsOf sumThenReads (RunOptions.standard.devices (some rogueSupplier) none) .standard =
        [loaded, sum, move, jump, input, refused] ∧
      jump.instruction.opcode = .jnc ∧ nibble (jump.before.cpu.pc + 1) = 4 ∧
      (lastCompleted? Instruction.isSum [loaded, sum, move]).any (·.overflows) = true ∧
      carryAfter [loaded, sum, move, jump, input, refused] = 1 ∧
      [loaded, sum, move, jump, input, refused].countP (·.completed) = 5 ∧
      lastCompleted? Instruction.isInput [loaded, sum, move, jump, input, refused] = some input :=
    ⟨_, _, _, _, _, _, _, rfl, rfl, rfl, rfl, rfl, rfl, rfl, rfl, rfl⟩
  obtain ⟨result, loaded, sum, move, jump, input, refused, ran, error, made, conditional, next,
    overflowed, carry, completed, last⟩ := evaluated
  obtain ⟨_, goes, ends⟩ :=
    latches_of_last_completed sumThenReads (some rogueSupplier) none .standard none
  obtain ⟨_, jumps⟩ := goes [loaded, sum, move] jump [input, refused] made
  obtain ⟨done, place⟩ := jumps conditional
  rw [if_pos overflowed, next] at place
  obtain ⟨stems, steps, _⟩ := ends result ran
  rw [made] at stems steps
  exact ⟨result, [loaded, sum, move], jump, input, refused, ran, made, conditional, done, place,
    error, steps.trans completed, stems.carry.trans carry, stems.input input last⟩

end FourBit
