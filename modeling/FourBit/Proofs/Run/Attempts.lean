import FourBit.Proofs.Run.Loop

/-! Attempts: the instructions that a run comes to, in their order, each with the machine before it.
What is true of the attempts so far and of the machine is shown by looking at one attempt more. -/

namespace FourBit

namespace Instruction

def receives? (i : Instruction) : Option Register :=
  match i.opcode with
  | .inA => some .a
  | .inB => some .b
  | _ => none

def isInput (i : Instruction) : Bool := i.receives?.isSome

end Instruction

theorem Machine.execute_input (devices : Devices) (i : Instruction) (m : Machine)
    (register : Register) (input : i.receives? = some register) :
    execute devices i m = m.receive devices register := by
  obtain ⟨opcode, operand⟩ := i
  cases opcode with
  | inA | inB =>
      cases input
      rfl
  | addA | movAB | movA | movBA | addB | movB | outB | outIm | jmp | jnc => cases input

structure Attempt where
  before : Machine
  instruction : Instruction
  completed : Bool
  deriving DecidableEq, Repr

namespace Attempt

def outcome (devices : Devices) (attempt : Attempt) : Machine × Option Failure :=
  Machine.execute devices attempt.instruction ⟨attempt.before.cpu, attempt.before.ports.clear⟩

def left (devices : Devices) (attempt : Attempt) : Machine := (attempt.outcome devices).1

end Attempt

namespace Progress

variable (rom : Rom) (devices : Devices) (options : RunOptions)

def attempts : Nat → Progress → List Attempt
  | 0, _ => []
  | budget + 1, p =>
    if p.machine.cpu.halted then []
    else match fetch rom p.machine.cpu.pc with
      | .error _ => []
      | .ok (_, i) => match p.step rom devices options with
        | (q, none) => ⟨p.machine, i, true⟩ :: attempts budget q
        | (_, some _) => [⟨p.machine, i, false⟩]

/-- How a loop goes through its attempts to its end. -/
inductive Course : Nat → Progress → List Attempt → Progress × Option Failure → Prop
  | spent (p : Progress) : Course 0 p [] (p, none)
  | halted (budget : Nat) (p : Progress) (halted : p.machine.cpu.halted = true) :
      Course (budget + 1) p [] (p, none)
  | missed (budget : Nat) (p : Progress) (fault : Fault) (running : p.machine.cpu.halted = false)
      (missing : fetch rom p.machine.cpu.pc = .error fault) :
      Course (budget + 1) p [] ({ p with addr := p.machine.cpu.pc }, some (.fault fault))
  | failed (budget : Nat) (p : Progress) (cell : Cell) (i : Instruction) (left : Machine)
      (failure : Failure) (running : p.machine.cpu.halted = false)
      (fetched : fetch rom p.machine.cpu.pc = .ok (cell, i))
      (executed : Attempt.outcome devices ⟨p.machine, i, false⟩ = (left, some failure)) :
      Course (budget + 1) p [⟨p.machine, i, false⟩]
        (⟨left, p.steps, p.machine.cpu.pc, p.rows⟩, some failure)
  | onward (budget : Nat) (p q : Progress) (cell : Cell) (i : Instruction) (after : Machine)
      (rest : List Attempt) (ending : Progress × Option Failure)
      (running : p.machine.cpu.halted = false) (taken : p.step rom devices options = (q, none))
      (stepped : p.Stepped rom devices options q cell i after)
      (more : Course budget q rest ending) :
      Course (budget + 1) p (⟨p.machine, i, true⟩ :: rest) ending

theorem iterate_course (budget : Nat) (p : Progress) :
    Course rom devices options budget p (p.attempts rom devices options budget)
      (p.iterate rom devices options budget) := by
  induction budget generalizing p with
  | zero => exact .spent p
  | succ budget ih =>
      cases halted : p.machine.cpu.halted with
      | true =>
          simp only [attempts, iterate, halted, if_true]
          exact .halted budget p halted
      | false =>
          simp only [attempts, iterate, halted, Bool.false_eq_true, if_false]
          cases fetched : fetch rom p.machine.cpu.pc with
          | error fault =>
              have taken : p.step rom devices options =
                  ({ p with addr := p.machine.cpu.pc }, some (.fault fault)) := by
                simp only [step, fetched]
              simp only [taken]
              exact .missed budget p fault halted fetched
          | ok found =>
              obtain ⟨cell, i⟩ := found
              cases executed : Attempt.outcome devices ⟨p.machine, i, false⟩ with
              | mk after failure? =>
                  have ran : Machine.execute devices i ⟨p.machine.cpu, p.machine.ports.clear⟩ =
                      (after, failure?) := executed
                  cases failure? with
                  | some failure =>
                      have taken : p.step rom devices options =
                          (⟨after, p.steps, p.machine.cpu.pc, p.rows⟩, some failure) := by
                        simp only [step, fetched, ran]
                      simp only [taken]
                      exact .failed budget p cell i after failure halted fetched executed
                  | none =>
                      cases taken : p.step rom devices options with
                      | mk q outcome =>
                          cases outcome with
                          | some failure =>
                              simp only [step, fetched, ran] at taken
                              cases taken
                          | none =>
                              obtain ⟨_, _, _, stepped⟩ := step_none rom devices options p q taken
                              cases fetched.symm.trans stepped.fetched
                              exact .onward budget p q cell i _ _ _ halted taken stepped (ih q)

theorem singleton_split {α : Type} {a b : α} {before after : List α}
    (split : [a] = before ++ b :: after) : before = [] ∧ a = b ∧ after = [] := by
  cases before with
  | nil =>
      cases split
      exact ⟨rfl, rfl, rfl⟩
  | cons first before => simp at split

namespace Course

variable {rom devices options} {budget : Nat} {p : Progress} {made : List Attempt}
  {ending : Progress × Option Failure}

/-- What each attempt keeps, completed or not, is true of all attempts and the machine in the end,
and of the attempts before each attempt and the machine that it began with. -/
theorem keeps (kept : List Attempt → Machine → Prop)
    (step : ∀ (past : List Attempt) (p q : Progress) (cell : Cell) (i : Instruction)
      (after : Machine), kept past p.machine → p.Stepped rom devices options q cell i after →
      kept (past ++ [⟨p.machine, i, true⟩]) q.machine)
    (fail : ∀ (past : List Attempt) (m left : Machine) (i : Instruction) (failure : Failure),
      kept past m → Attempt.outcome devices ⟨m, i, false⟩ = (left, some failure) →
      kept (past ++ [⟨m, i, false⟩]) left)
    (course : Course rom devices options budget p made ending) (past : List Attempt)
    (base : kept past p.machine) :
    kept (past ++ made) ending.1.machine ∧
      ∀ before attempt after, made = before ++ attempt :: after →
        kept (past ++ before) attempt.before := by
  induction course generalizing past with
  | spent | halted | missed =>
      refine ⟨by simpa only [List.append_nil] using base, ?_⟩
      intro before attempt after split
      cases before <;> cases split
  | failed budget p cell i left failure running fetched executed =>
      refine ⟨fail past p.machine left i failure base executed, ?_⟩
      intro before attempt after split
      obtain ⟨rfl, rfl, rfl⟩ := singleton_split split
      simpa only [List.append_nil] using base
  | onward budget p q cell i after rest ending running taken stepped more ih =>
      have later := ih (past ++ [⟨p.machine, i, true⟩]) (step past p q cell i after base stepped)
      simp only [List.append_assoc, List.singleton_append] at later
      refine ⟨later.1, ?_⟩
      intro before attempt behind split
      cases before with
      | nil =>
          cases split
          simpa only [List.append_nil] using base
      | cons first before =>
          cases split
          exact later.2 before attempt behind rfl

theorem outcomes (course : Course rom devices options budget p made ending) :
    ∀ attempt ∈ made,
      (∃ cell, fetch rom attempt.before.cpu.pc = .ok (cell, attempt.instruction)) ∧
        attempt.completed = (attempt.outcome devices).2.isNone := by
  induction course with
  | spent | halted | missed => simp
  | failed budget p cell i left failure running fetched executed =>
      refine List.forall_mem_singleton.mpr ⟨⟨cell, fetched⟩, ?_⟩
      rw [executed]
      rfl
  | onward budget p q cell i after rest ending running taken stepped more ih =>
      refine List.forall_mem_cons.mpr ⟨⟨⟨cell, stepped.fetched⟩, ?_⟩, ih⟩
      have executed : Attempt.outcome devices ⟨p.machine, i, true⟩ = (after, none) :=
        stepped.executed
      rw [executed]
      rfl

theorem nil_of_halted (course : Course rom devices options budget p made ending)
    (halted : p.machine.cpu.halted = true) : made = [] := by
  cases course with
  | spent | halted | missed => rfl
  | failed _ _ _ _ _ _ running => cases running.symm.trans halted
  | onward _ _ _ _ _ _ _ _ running => cases running.symm.trans halted

theorem steps (course : Course rom devices options budget p made ending) :
    ending.1.steps = p.steps + made.countP (·.completed) := by
  induction course with
  | spent | halted | missed | failed => rfl
  | onward budget p q cell i after rest ending running taken stepped more ih =>
      rw [ih, stepped.steps, List.countP_cons_of_pos rfl]
      omega

theorem recorded (course : Course rom devices options budget p made ending)
    (tracing : options.trace = true) :
    ending.1.rows.reverse.map (fun row => (row.addr, row.instruction)) =
      p.rows.reverse.map (fun row => (row.addr, row.instruction)) ++
        (made.filter (·.completed)).map
          (fun attempt => (attempt.before.cpu.pc, attempt.instruction)) := by
  induction course with
  | spent | halted | missed | failed => exact (List.append_nil _).symm
  | onward budget p q cell i after rest ending running taken stepped more ih =>
      rw [ih, stepped.rows, if_pos tracing, stepped.addr, List.reverse_cons, List.map_append,
        List.append_assoc]
      rfl

theorem uncompleted (course : Course rom devices options budget p made ending)
    {before after : List Attempt} {attempt : Attempt} (split : made = before ++ attempt :: after)
    (incomplete : attempt.completed = false) :
    after = [] ∧ ∃ q failure, ending = (q, some failure) ∧
      attempt.outcome devices = (q.machine, some failure) ∧ q.addr = attempt.before.cpu.pc := by
  induction course generalizing before with
  | spent | halted | missed => cases before <;> cases split
  | failed budget p cell i left failure running fetched executed =>
      obtain ⟨_, rfl, rfl⟩ := singleton_split split
      exact ⟨rfl, _, failure, rfl, executed, rfl⟩
  | onward budget p q cell i after rest ending running taken stepped more ih =>
      cases before with
      | nil =>
          cases split
          cases incomplete
      | cons first before =>
          cases split
          exact ih rfl

theorem failure (course : Course rom devices options budget p made ending) {q : Progress}
    {failure : Failure} (ended : ending = (q, some failure)) :
    (∃ fault, failure = .fault fault ∧ fetch rom q.machine.cpu.pc = .error fault) ∨
      ∃ before attempt, made = before ++ [attempt] ∧ attempt.completed = false ∧
        attempt.outcome devices = (q.machine, some failure) := by
  induction course with
  | spent | halted => cases ended
  | missed budget p fault running missing =>
      cases ended
      exact .inl ⟨fault, rfl, missing⟩
  | failed budget p cell i left failure running fetched executed =>
      cases ended
      exact .inr ⟨[], _, rfl, rfl, executed⟩
  | onward budget p q cell i after rest ending running taken stepped more ih =>
      rcases ih ended with missing | ⟨before, attempt, rfl, incomplete, executed⟩
      · exact .inl missing
      · exact .inr ⟨⟨p.machine, i, true⟩ :: before, attempt, rfl, incomplete, executed⟩

end Course

end Progress

def attemptsOf (rom : Rom) (devices : Devices) (options : RunOptions) : List Attempt :=
  Progress.start.attempts rom devices options options.maxSteps

theorem attemptsOf_course (rom : Rom) (devices : Devices) (options : RunOptions) :
    Progress.Course rom devices options options.maxSteps .start (attemptsOf rom devices options)
      (Progress.start.iterate rom devices options options.maxSteps) :=
  Progress.iterate_course rom devices options options.maxSteps .start

end FourBit
