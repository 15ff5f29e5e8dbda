import FourBit.Proofs.Machine.Execution
import FourBit.Proofs.Run.Loop

/-! How runs end: the budget spent, a jump to itself, or a turn that fails, each at a place on the
orbit of the machine. -/

namespace FourBit

def HaltPolicy.endsAt (policy : HaltPolicy) (rom : Rom) (m : Machine) : Bool :=
  policy == .selfLoop && m.spins rom

theorem HaltPolicy.selfLoop_of_endsAt {policy : HaltPolicy} {rom : Rom} {m : Machine}
    (ends : policy.endsAt rom m = true) : policy = .selfLoop := by
  rw [endsAt, Bool.and_eq_true, beq_iff_eq] at ends
  exact ends.1

namespace Machine

def proceed? (policy : HaltPolicy) (rom : Rom) (devices : Devices) (m : Machine) : Option Machine :=
  if policy.endsAt rom m then none else m.next? rom devices

def alive? (policy : HaltPolicy) (rom : Rom) (devices : Devices) : Nat → Option Machine :=
  orbit (proceed? policy rom devices) start

theorem proceed_iff (policy : HaltPolicy) (rom : Rom) (devices : Devices) (m after : Machine) :
    m.proceed? policy rom devices = some after ↔
      policy.endsAt rom m = false ∧ m.next? rom devices = some after := by
  unfold proceed?
  cases policy.endsAt rom m <;> simp

theorem proceed_none_of_ends (policy : HaltPolicy) (rom : Rom) (devices : Devices) (m : Machine)
    (ends : policy.endsAt rom m = true) : m.proceed? policy rom devices = none := by
  simp only [proceed?, ends, if_true]

theorem proceed_none_of_turn (policy : HaltPolicy) (rom : Rom) (devices : Devices)
    (m left : Machine) (failure : Failure) (turned : m.turn rom devices = (left, some failure)) :
    m.proceed? policy rom devices = none := by
  have stuck := (next_none_iff rom devices m).mpr ⟨left, failure, turned⟩
  simp only [proceed?, stuck, ite_self]

theorem after_of_alive (policy : HaltPolicy) (rom : Rom) (devices : Devices) (n : Nat)
    (m : Machine) (alive : alive? policy rom devices n = some m) :
    after? rom devices n = some m :=
  orbit_mono (next? rom devices)
    (fun x y moved => ((proceed_iff policy rom devices x y).mp moved).2) n m alive

theorem running_of_alive (policy : HaltPolicy) (rom : Rom) (devices : Devices) (n : Nat)
    (m : Machine) (alive : alive? policy rom devices n = some m) : m.cpu.halted = false :=
  after_running devices rom n m (after_of_alive policy rom devices n m alive)

theorem inRange_of_alive (policy : HaltPolicy) (rom : Rom) (devices : Devices) (n : Nat)
    (m : Machine) (alive : alive? policy rom devices n = some m) : m.cpu.InRange :=
  after_inRange devices rom n m (after_of_alive policy rom devices n m alive)

end Machine

namespace Progress

variable (rom : Rom) (devices : Devices) (options : RunOptions)

theorem step_moved (p : Progress) (after : Machine) (running : p.machine.cpu.halted = false)
    (moved : p.machine.next? rom devices = some after) :
    ∃ q, p.step rom devices options = (q, none) ∧ q.steps = p.steps + 1 ∧
      q.addr = p.machine.cpu.pc ∧
      q.machine = if options.policy.endsAt rom p.machine then after.halt else after := by
  obtain ⟨cell, i, fetched, executed⟩ := Machine.next_fetch rom devices p.machine after moved
  have kept := Machine.execute_halted devices i ⟨p.machine.cpu, p.machine.ports.clear⟩
  rw [executed] at kept
  have still : after.cpu.halted = false := kept.trans running
  have spinning := Machine.spins_of_fetch rom p.machine cell i fetched
  simp only [step, fetched, executed]
  refine ⟨_, rfl, rfl, rfl, ?_⟩
  simp only [HaltPolicy.endsAt, spinning, still, Bool.false_or]
  split
  · rename_i ends
    rw [ends]
    rfl
  · rename_i onward
    rw [Bool.eq_false_of_not_eq_true onward, ← still]

theorem step_failed (p : Progress) (left : Machine) (failure : Failure)
    (turned : p.machine.turn rom devices = (left, some failure)) :
    p.step rom devices options =
      (⟨left, p.steps, p.machine.cpu.pc, p.rows⟩, some failure) := by
  unfold Machine.turn at turned
  unfold step
  split at turned
  · rename_i fault missing
    cases turned
    simp only [missing]
  · rename_i cell i fetched
    simp only [fetched, turned]

def AtLast (q : Progress) : Prop :=
  ∀ k m, q.steps = k + 1 → Machine.alive? options.policy rom devices k = some m →
    q.addr = m.cpu.pc

/-- Where a run that was to take so many steps has stopped. -/
inductive Stopped (budget : Nat) : Progress × Option Failure → Prop
  | spent (q : Progress)
      (alive : Machine.alive? options.policy rom devices q.steps = some q.machine)
      (steps : q.steps = budget) (place : q.AtLast rom devices options) : Stopped budget (q, none)
  | halted (q : Progress) (k : Nat) (m after : Machine)
      (alive : Machine.alive? options.policy rom devices k = some m) (within : k < budget)
      (ends : options.policy.endsAt rom m = true) (moved : m.next? rom devices = some after)
      (steps : q.steps = k + 1) (machine : q.machine = after.halt) : Stopped budget (q, none)
  | failed (q : Progress) (m : Machine) (failure : Failure)
      (alive : Machine.alive? options.policy rom devices q.steps = some m)
      (within : q.steps < budget)
      (turned : m.turn rom devices = (q.machine, some failure)) (place : q.addr = m.cpu.pc) :
      Stopped budget (q, some failure)

theorem start_atLast : start.AtLast rom devices options := by
  intro k m number
  cases number

theorem iterate_stopped (budget : Nat) (p : Progress)
    (alive : Machine.alive? options.policy rom devices p.steps = some p.machine)
    (place : p.AtLast rom devices options) :
    Stopped rom devices options (p.steps + budget) (p.iterate rom devices options budget) := by
  induction budget generalizing p with
  | zero => exact .spent p alive rfl place
  | succ budget ih =>
      have running := Machine.running_of_alive _ rom devices _ _ alive
      simp only [iterate, running, Bool.false_eq_true, if_false]
      cases turned : p.machine.turn rom devices with
      | mk left outcome =>
        cases outcome with
        | some failure =>
            rw [step_failed rom devices options p left failure turned]
            exact .failed _ p.machine failure alive (by simp) turned rfl
        | none =>
            have moved := (Machine.next_iff rom devices p.machine left).mpr turned
            obtain ⟨q, stepped, steps, addr, machine⟩ :=
              step_moved rom devices options p left running moved
            rw [stepped]
            simp only
            cases ends : options.policy.endsAt rom p.machine with
            | true =>
                simp only [ends, if_true] at machine
                have flagged : q.machine.cpu.halted = true := by rw [machine]; rfl
                rw [iterate_halted rom devices options budget q flagged]
                exact .halted q p.steps p.machine left alive (by omega) ends moved steps machine
            | false =>
                simp only [ends, Bool.false_eq_true, if_false] at machine
                have onward := (Machine.proceed_iff _ rom devices p.machine left).mpr ⟨ends, moved⟩
                have later := (orbit_succ_iff p.steps left).mpr ⟨p.machine, alive, onward⟩
                rw [← steps, ← machine] at later
                have total : p.steps + (budget + 1) = q.steps + budget := by omega
                rw [total]
                apply ih q later
                intro k m number present
                have same : p.steps = k := Nat.succ.inj (steps.symm.trans number)
                subst same
                cases alive.symm.trans present
                exact addr

theorem start_stopped :
    Stopped rom devices options options.maxSteps
      (start.iterate rom devices options options.maxSteps) := by
  have stopped := iterate_stopped rom devices options options.maxSteps start rfl
    (start_atLast rom devices options)
  have whole : start.steps + options.maxSteps = options.maxSteps := Nat.zero_add _
  rw [whole] at stopped
  exact stopped

end Progress

/-- What a run can come to, and where the machine stands then. -/
inductive Ending (rom : Rom) (devices : Devices) (options : RunOptions) :
    Except Breach RunResult → Prop
  | spent (result : RunResult) (policy : options.policy = .stepBudget)
      (alive : Machine.alive? options.policy rom devices options.maxSteps = some result.machine)
      (steps : result.steps = options.maxSteps) (stop : result.stop = .stepBudget)
      (error : result.error? = none) : Ending rom devices options (.ok result)
  | exceeded (result : RunResult) (fault : Fault) (policy : options.policy = .selfLoop)
      (alive : Machine.alive? options.policy rom devices options.maxSteps = some result.machine)
      (steps : result.steps = options.maxSteps) (stop : result.stop = .error)
      (error : result.error? = some fault) (kind : fault.kind = .stepLimitExceeded) :
      Ending rom devices options (.ok result)
  | halted (result : RunResult) (k : Nat) (m after : Machine)
      (alive : Machine.alive? options.policy rom devices k = some m) (within : k < options.maxSteps)
      (ends : options.policy.endsAt rom m = true) (moved : m.next? rom devices = some after)
      (machine : result.machine = after.halt) (steps : result.steps = k + 1)
      (stop : result.stop = .halt) (error : result.error? = none) :
      Ending rom devices options (.ok result)
  | failed (result : RunResult) (m : Machine) (fault shown : Fault)
      (alive : Machine.alive? options.policy rom devices result.steps = some m)
      (within : result.steps < options.maxSteps)
      (turned : m.turn rom devices = (result.machine, some (.fault fault)))
      (stop : result.stop = .error) (error : result.error? = some shown)
      (kind : shown.kind = fault.kind) : Ending rom devices options (.ok result)
  | broken (k : Nat) (m left : Machine) (breach : Breach)
      (alive : Machine.alive? options.policy rom devices k = some m) (within : k < options.maxSteps)
      (turned : m.turn rom devices = (left, some (.breach breach))) :
      Ending rom devices options (.error breach)

theorem Progress.locate_kind (p : Progress) (program? : Option Program) (fault : Fault) :
    (p.locate program? fault).kind = fault.kind := by
  unfold Progress.locate
  simp only
  split <;> rfl

theorem runWith_ending (rom : Rom) (devices : Devices) (options : RunOptions)
    (program? : Option Program) :
    Ending rom devices options (runWith rom devices options program?) := by
  have stopped := Progress.start_stopped rom devices options
  have finished := Progress.runWith_finished rom devices options program?
  generalize Progress.start.iterate rom devices options options.maxSteps = outcome at *
  generalize runWith rom devices options program? = answer at finished ⊢
  cases stopped with
  | spent q alive steps =>
      have running := Machine.running_of_alive _ rom devices _ _ alive
      rw [steps] at alive
      cases finished with
      | halted _ halted => cases running.symm.trans halted
      | spent _ _ policy => exact .spent _ policy alive steps rfl rfl
      | exceeded _ _ policy =>
          exact .exceeded _ _ policy alive steps rfl rfl (Progress.locate_kind q program? _)
  | halted q k m after alive within ends moved steps machine =>
      have flagged : q.machine.cpu.halted = true := by rw [machine]; rfl
      cases finished with
      | halted => exact .halted _ k m after alive within ends moved machine steps rfl rfl
      | spent _ running | exceeded _ running => cases flagged.symm.trans running
  | failed q m failure alive within turned =>
      cases finished with
      | failed _ fault =>
          have kind := Progress.locate_kind q program? fault
          exact .failed _ m fault _ alive within turned rfl rfl kind
      | broken _ breach => exact .broken q.steps m q.machine breach alive within turned

theorem run_ending (rom : Rom) (supplier? : Option Supplier) (sink? : Option Sink)
    (options : RunOptions) (program? : Option Program) :
    Ending rom (options.devices supplier? sink?) options
      (run rom supplier? sink? options program?) :=
  runWith_ending rom _ options program?

namespace Ending

open Machine

variable {rom : Rom} {devices : Devices} {options : RunOptions} {outcome : Except Breach RunResult}

theorem of_alive (ending : Ending rom devices options outcome) (m : Machine)
    (alive : alive? options.policy rom devices options.maxSteps = some m) :
    ∃ result, outcome = .ok result ∧ result.machine = m ∧ result.steps = options.maxSteps ∧
      (options.policy = .stepBudget → result.error? = none) ∧
      (options.policy = .selfLoop → result.stop = .error ∧
        ∃ fault, result.error? = some fault ∧ fault.kind = .stepLimitExceeded) := by
  cases ending with
  | spent result policy last steps stop error =>
      refine ⟨result, rfl, Option.some.inj (last.symm.trans alive), steps, fun _ => error, ?_⟩
      intro other
      cases policy.symm.trans other
  | exceeded result fault policy last steps stop error kind =>
      refine ⟨result, rfl, Option.some.inj (last.symm.trans alive), steps, ?_,
        fun _ => ⟨stop, fault, error, kind⟩⟩
      intro other
      cases policy.symm.trans other
  | halted result k m' after' last within ends =>
      have stuck := proceed_none_of_ends options.policy rom devices m' ends
      have early := orbit_stuck k _ m' m last stuck alive
      omega
  | failed result m' fault shown last within turned =>
      have stuck := proceed_none_of_turn options.policy rom devices m' _ _ turned
      have early := orbit_stuck _ _ m' m last stuck alive
      omega
  | broken k m' left breach last within turned =>
      have stuck := proceed_none_of_turn options.policy rom devices m' _ _ turned
      have early := orbit_stuck k _ m' m last stuck alive
      omega

end Ending

end FourBit
