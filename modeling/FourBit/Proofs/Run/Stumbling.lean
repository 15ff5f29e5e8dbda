import FourBit.Proofs.Machine.Replay
import FourBit.Proofs.Run.Ending

/-! Runs that break off because an input is given what no message can show. -/

namespace FourBit

/-- Within its budget a run comes to an input at which the machine stumbles. -/
def RunOptions.Stumbles (options : RunOptions) (rom : Rom) (devices : Devices) : Prop :=
  ∃ k m, k < options.maxSteps ∧ Machine.alive? options.policy rom devices k = some m ∧
    m.Stumbles rom devices

theorem RunOptions.Stumbles.larger {first second : RunOptions} {rom : Rom} {devices : Devices}
    (stumbles : first.Stumbles rom devices) (policy : first.policy = second.policy)
    (larger : first.maxSteps ≤ second.maxSteps) : second.Stumbles rom devices := by
  obtain ⟨k, m, within, alive, here⟩ := stumbles
  exact ⟨k, m, Nat.lt_of_lt_of_le within larger, policy ▸ alive, here⟩

namespace Ending

open Machine

variable {rom : Rom} {devices : Devices} {options : RunOptions}

theorem of_breach {outcome : Except Breach RunResult} (ending : Ending rom devices options outcome)
    (k : Nat) (m left : Machine) (breach : Breach)
    (alive : alive? options.policy rom devices k = some m) (within : k < options.maxSteps)
    (turned : m.turn rom devices = (left, some (.breach breach))) : outcome = .error breach := by
  have stuck := proceed_none_of_turn options.policy rom devices m left _ turned
  -- The run got as far as this machine and no further, whatever it is said to have ended at.
  cases ending with
  | spent result policy last =>
      have early := orbit_stuck k _ m _ alive stuck last
      omega
  | exceeded result fault policy last =>
      have early := orbit_stuck k _ m _ alive stuck last
      omega
  | halted result j m' after last within' ends moved =>
      have stuck' := proceed_none_of_ends options.policy rom devices m' ends
      obtain ⟨_, rfl⟩ := orbit_end_unique k j m m' alive stuck last stuck'
      rw [(next_iff rom devices m after).mp moved] at turned
      cases turned
  | failed result m' fault shown last within' turned' =>
      have stuck' := proceed_none_of_turn options.policy rom devices m' _ _ turned'
      obtain ⟨_, rfl⟩ := orbit_end_unique k _ m m' alive stuck last stuck'
      cases turned.symm.trans turned'
  | broken j m' left' breach' last within' turned' =>
      have stuck' := proceed_none_of_turn options.policy rom devices m' _ _ turned'
      obtain ⟨_, rfl⟩ := orbit_end_unique k j m m' alive stuck last stuck'
      cases turned.symm.trans turned'
      rfl

/-- What breaks a run off is a sample that cannot be shown, or raised by a device. -/
theorem broken_cause {breach : Breach} (ending : Ending rom devices options (.error breach)) :
    (breach = .longNumber ∧ options.Stumbles rom devices) ∨ devices.Raises (.breach breach) := by
  cases ending with
  | broken k m left _ alive within turned =>
      have inside := inRange_of_alive _ rom devices k m alive
      obtain ⟨written, fails, _⟩ := turn_fails rom devices m left _ inside turned
      rcases fails.own_or_raised with ⟨_, impossible, _⟩ | ⟨same, stumbles⟩ | raised
      · cases impossible
      · cases same
        exact .inl ⟨rfl, k, m, within, alive, stumbles⟩
      · exact .inr raised

end Ending

section Devices

variable (rom : Rom) (devices : Devices) (options : RunOptions) (program? : Option Program)

theorem runWith_of_stumbles (stumbles : options.Stumbles rom devices) :
    runWith rom devices options program? = .error .longNumber := by
  obtain ⟨k, m, within, alive, here⟩ := stumbles
  obtain ⟨left, turned⟩ := here.turn
  exact (runWith_ending rom devices options program?).of_breach k m left _ alive within turned

/-- With devices that raise nothing but faults only a sample that cannot be shown keeps a run from
its result. -/
theorem runWith_ok
    (faults : ∀ failure, devices.Raises failure → ∃ fault, failure = .fault fault)
    (sure : ¬ options.Stumbles rom devices) :
    ∃ result, runWith rom devices options program? = .ok result := by
  have ending := runWith_ending rom devices options program?
  cases outcome : runWith rom devices options program? with
  | ok result => exact ⟨result, rfl⟩
  | error breach =>
      rw [outcome] at ending
      rcases ending.broken_cause with ⟨_, stumbles⟩ | raised
      · exact (sure stumbles).elim
      · obtain ⟨fault, impossible⟩ := faults _ raised
        cases impossible

end Devices

theorem RunOptions.sure_of_shown (options : RunOptions) (rom : Rom) (sink? : Option Sink)
    (shown : ∀ sample ∈ options.inputs, sample.isShown = true) :
    ¬ options.Stumbles rom (options.devices none sink?) := by
  intro stumbles
  obtain ⟨_, m, _, _, _, _, sample, _, _, given, hidden⟩ := stumbles
  obtain ⟨other, given', known⟩ := Supplier.replay_cases options.inputs m.ports.asked
  cases given.symm.trans given'
  rcases known with listed | rfl
  · cases hidden.symm.trans (shown sample listed)
  · cases (Datum.nibble_of_hidden hidden).symm.trans (Datum.nibble_of_fin 0)

theorem run_unattended (rom : Rom) (options : RunOptions) (program? : Option Program)
    (shown : ∀ sample ∈ options.inputs, sample.isShown = true) :
    ∃ result, run rom none none options program? = .ok result := by
  apply runWith_ok rom _ options program? _ (options.sure_of_shown rom none shown)
  intro failure raises
  exact (Devices.replaying_silent options.inputs failure raises).elim

end FourBit
