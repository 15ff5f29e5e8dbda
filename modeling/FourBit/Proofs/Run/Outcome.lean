import FourBit.Proofs.Run.Range
import FourBit.Proofs.Run.SelfLoop

namespace FourBit

namespace RunResult

structure HaltedWell (result : RunResult) (options : RunOptions) : Prop where
  status : result.status = "ok"
  halted : result.halted = true
  stop : result.stop = .halt
  error : result.error? = none
  moved : 1 ≤ result.steps
  policy : options.policy = .selfLoop

structure SpentWell (result : RunResult) (options : RunOptions) : Prop where
  status : result.status = "ok"
  running : result.halted = false
  stop : result.stop = .stepBudget
  error : result.error? = none
  steps : result.steps = options.maxSteps
  policy : options.policy = .stepBudget

/-- The error is raised by the check behind the loop, which has come to its end. -/
def RaisedBehindLoop (result : RunResult) (rom : Rom) (devices : Devices) (options : RunOptions)
    (program? : Option Program) : Prop :=
  ∃ p, Progress.start.iterate rom devices options options.maxSteps = (p, none) ∧
    result = p.result .error (some (p.locate program? (stepLimitFault options.maxSteps)))

/-- The error is raised by a step, which leaves the loop. -/
def RaisedInLoop (result : RunResult) (rom : Rom) (devices : Devices) (options : RunOptions)
    (program? : Option Program) : Prop :=
  ∃ p fault, Progress.start.iterate rom devices options options.maxSteps =
      (p, some (.fault fault)) ∧
    result = p.result .error (some (p.locate program? fault))

structure Errs (result : RunResult) (rom : Rom) (devices : Devices) (options : RunOptions)
    (program? : Option Program) : Prop where
  status : result.status = "error"
  running : result.halted = false
  stop : result.stop = .error
  error : ∃ shown, result.error? = some shown
  raised : (result.RaisedBehindLoop rom devices options program? ∧ options.policy = .selfLoop ∧
      result.steps = options.maxSteps) ∨
    (result.RaisedInLoop rom devices options program? ∧ result.steps < options.maxSteps)

/-- How a run came out, by the reason for which it stopped. -/
def ComesOut (result : RunResult) (rom : Rom) (devices : Devices) (options : RunOptions)
    (program? : Option Program) : StopReason → Prop
  | .halt => result.HaltedWell options
  | .stepBudget => result.SpentWell options
  | .error => result.Errs rom devices options program?

theorem ComesOut.stop {result : RunResult} {rom : Rom} {devices : Devices} {options : RunOptions}
    {program? : Option Program} {reason : StopReason}
    (out : result.ComesOut rom devices options program? reason) : result.stop = reason := by
  cases reason with
  | halt => exact HaltedWell.stop out
  | stepBudget => exact SpentWell.stop out
  | error => exact Errs.stop out

theorem ComesOut.unique {result : RunResult} {rom : Rom} {devices : Devices}
    {options : RunOptions} {program? : Option Program} {reason : StopReason}
    (out : result.ComesOut rom devices options program? reason) :
    ∃! reason, result.ComesOut rom devices options program? reason := by
  refine ⟨reason, out, ?_⟩
  intro other again
  exact again.stop.symm.trans out.stop

end RunResult

section Devices

variable {rom : Rom} {devices : Devices} {options : RunOptions}

theorem Progress.Stopped.sound {budget : Nat} {p : Progress}
    (stopped : Stopped rom devices options budget (p, none)) :
    (p.machine.cpu.halted = true ∧ options.policy = .selfLoop ∧ 1 ≤ p.steps ∧ p.steps ≤ budget) ∨
      (p.machine.cpu.halted = false ∧ p.steps = budget) := by
  cases stopped with
  | spent _ alive steps =>
      exact .inr ⟨Machine.running_of_alive _ rom devices _ _ alive, steps⟩
  | halted _ k m after alive within ends moved steps machine =>
      have flagged : p.machine.cpu.halted = true := by rw [machine]; rfl
      exact .inl ⟨flagged, HaltPolicy.selfLoop_of_endsAt ends, by omega, by omega⟩

theorem Progress.Stopped.unsound {budget : Nat} {p : Progress} {failure : Failure}
    (stopped : Stopped rom devices options budget (p, some failure)) :
    p.machine.cpu.halted = false ∧ p.steps < budget := by
  cases stopped with
  | failed _ m _ alive within turned =>
      have kept := Machine.turn_halted devices rom m
      rw [turned, Machine.running_of_alive _ rom devices _ _ alive] at kept
      exact ⟨kept, within⟩

theorem runWith_comesOut (program? : Option Program) (result : RunResult)
    (ran : runWith rom devices options program? = .ok result) :
    result.steps ≤ options.maxSteps ∧
      ∃ reason, result.ComesOut rom devices options program? reason := by
  have stopped := Progress.start_stopped rom devices options
  have finished := Progress.runWith_finished rom devices options program?
  rw [ran] at finished
  cases looped : Progress.start.iterate rom devices options options.maxSteps with
  | mk p failure? =>
      rw [looped] at stopped finished
      cases finished with
      | failed _ fault =>
          rcases stopped.unsound with ⟨running, below⟩
          exact ⟨Nat.le_of_lt below, .error, rfl, running, rfl, ⟨_, rfl⟩,
            .inr ⟨⟨p, fault, looped, rfl⟩, below⟩⟩
      | halted _ halted =>
          rcases stopped.sound with ⟨_, policy, moved, within⟩ | ⟨running, _⟩
          · exact ⟨within, .halt, rfl, halted, rfl, rfl, moved, policy⟩
          · cases running.symm.trans halted
      | spent _ running policy =>
          rcases stopped.sound with ⟨halted, _⟩ | ⟨_, steps⟩
          · cases running.symm.trans halted
          · exact ⟨Nat.le_of_eq steps, .stepBudget, rfl, running, rfl, rfl, steps, policy⟩
      | exceeded _ running policy =>
          rcases stopped.sound with ⟨halted, _⟩ | ⟨_, steps⟩
          · cases running.symm.trans halted
          · exact ⟨Nat.le_of_eq steps, .error, rfl, running, rfl, ⟨_, rfl⟩,
              .inl ⟨⟨p, looped, rfl⟩, policy, steps⟩⟩

theorem Machine.moves_of_spins (m : Machine) (spinning : m.spins rom = true) :
    ∃ after, m.next? rom devices = some after := by
  cases fetched : fetch rom m.cpu.pc with
  | error fault =>
      simp only [spins, fetched] at spinning
      cases spinning
  | ok found =>
      rcases found with ⟨cell, i⟩
      rw [spins_of_fetch rom m cell i fetched] at spinning
      have executed := execute_selfLoop devices i ⟨m.cpu, m.ports.clear⟩ spinning
      exact ⟨_, next_of_execute rom devices m _ cell i fetched executed⟩

end Devices

/-- With devices that raise nothing but faults a run comes to a result, unless it stumbles at a
sample that cannot be shown. The result is within the budget and comes out in one of three ways: it
has halted, its budget is spent, or there is an error, which is raised in a step within the budget
or by the check behind the last one. A jump to itself at the very last step is a halt. -/
theorem run_comes_out_once (rom : Rom) (supplier? : Option Supplier) (sink? : Option Sink)
    (options : RunOptions) (program? : Option Program)
    (faults : ∀ failure, (options.devices supplier? sink?).Raises failure →
      ∃ fault, failure = .fault fault) :
    (options.Stumbles rom (options.devices supplier? sink?) →
      run rom supplier? sink? options program? = .error .longNumber) ∧
    (¬ options.Stumbles rom (options.devices supplier? sink?) →
      ∃ result, run rom supplier? sink? options program? = .ok result ∧
        result.steps ≤ options.maxSteps ∧
        (∃! reason,
          result.ComesOut rom (options.devices supplier? sink?) options program? reason) ∧
        ∀ m, options.policy = .selfLoop →
          Machine.alive? .selfLoop rom (options.devices supplier? sink?) (options.maxSteps - 1) =
            some m → m.spins rom = true →
          result.HaltedWell options ∧ result.steps = options.maxSteps) := by
  refine ⟨runWith_of_stumbles rom _ options program?, ?_⟩
  intro sure
  rcases runWith_ok rom _ options program? faults sure with ⟨result, ran⟩
  rcases runWith_comesOut program? result ran with ⟨within, reason, out⟩
  refine ⟨result, ran, within, out.unique, ?_⟩
  intro m policy alive spinning
  rcases m.moves_of_spins spinning with ⟨after, moved⟩
  have last := options.positive
  have ending := run_ending rom supplier? sink? options program?
  rw [← policy] at alive
  have ends : options.policy.endsAt rom m = true := by
    rw [policy]
    exact spinning
  rcases ending.of_endsAt (options.maxSteps - 1) m after alive (by omega) ends moved with
    ⟨result', ran', halted, steps⟩
  cases ran.symm.trans ran'
  have whole : result.steps = options.maxSteps := by omega
  cases reason with
  | halt => exact ⟨out, whole⟩
  | stepBudget => cases halted.symm.trans (RunResult.SpentWell.running out)
  | error => cases halted.symm.trans (RunResult.Errs.running out)

def readAndRest : Rom := ⟨.byte 0x20 :: .byte 0xF1 :: List.replicate 14 (.byte 0x80), rfl⟩

theorem run_comes_out_once_readAndRest :
    ∃ result refused,
      run readAndRest none none ⟨2, by decide, .selfLoop, true, []⟩ none = .ok result ∧
      result.HaltedWell ⟨2, by decide, .selfLoop, true, []⟩ ∧ result.steps = 2 ∧
      run readAndRest (some (.replay [.error (.fault (stepLimitFault 2))])) none
        ⟨2, by decide, .selfLoop, true, []⟩ none = .ok refused ∧
      refused.steps = 0 ∧
      ∃! reason, refused.ComesOut readAndRest
        ⟨.replay [.error (.fault (stepLimitFault 2))], none⟩
        ⟨2, by decide, .selfLoop, true, []⟩ none reason := by
  have quiet : ∀ failure, (Devices.mk (.replay []) none).Raises failure →
      ∃ fault, failure = .fault fault := by
    intro failure raises
    cases raises with
    | supplier asked raised => cases raised
    | sink sink values present raised => cases present
  have complaint (asked : Nat) :
      Supplier.replay [.error (.fault (stepLimitFault 2))] asked =
        .error (.fault (stepLimitFault 2)) := by
    simp only [Supplier.replay, List.length_singleton, Nat.sub_self, Nat.min_zero,
      List.getElem?_cons_zero]
  have complaining : ∀ failure,
      (Devices.mk (.replay [.error (.fault (stepLimitFault 2))]) none).Raises failure →
      ∃ fault, failure = .fault fault := by
    intro failure raises
    cases raises with
    | supplier asked raised =>
        cases (complaint asked).symm.trans raised
        exact ⟨_, rfl⟩
    | sink sink values present raised => cases present
  have sure := RunOptions.sure_of_shown ⟨2, by decide, .selfLoop, true, []⟩ readAndRest none
    (by simp)
  have sure' : ¬ RunOptions.Stumbles ⟨2, by decide, .selfLoop, true, []⟩ readAndRest
      ⟨.replay [.error (.fault (stepLimitFault 2))], none⟩ := by
    intro stumbles
    obtain ⟨_, m, _, _, _, _, sample, _, _, given, _⟩ := stumbles
    cases (complaint m.ports.asked).symm.trans given
  obtain ⟨result, ran, _, _, last⟩ := (run_comes_out_once readAndRest none none
    ⟨2, by decide, .selfLoop, true, []⟩ none quiet).2 sure
  obtain ⟨refused, ran', _, out, _⟩ := (run_comes_out_once readAndRest
    (some (.replay [.error (.fault (stepLimitFault 2))])) none
    ⟨2, by decide, .selfLoop, true, []⟩ none complaining).2 sure'
  obtain ⟨halted, steps⟩ := last _ rfl rfl rfl
  refine ⟨result, refused, ran, halted, steps, ran', ?_, out⟩
  cases ran'
  rfl

/-- A sample that is too long to be shown is refused by nothing, and no result says so. -/
theorem long_sample_breaks_off :
    run readAndRest none none ⟨2, by decide, .selfLoop, true, [.firstLong]⟩ none =
      .error .longNumber := by
  apply runWith_of_stumbles
  exact ⟨0, .start, by decide, rfl, _, ⟨.inA, 0⟩, .firstLong, rfl, .inl rfl, rfl,
    Datum.firstLong_hidden⟩

end FourBit
