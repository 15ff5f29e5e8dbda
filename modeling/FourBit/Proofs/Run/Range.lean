import FourBit.Proofs.Machine.Range
import FourBit.Proofs.Run.Stumbling

namespace FourBit

structure TraceRow.InRange (row : TraceRow) : Prop where
  a : 0 ≤ row.a ∧ row.a < 16
  b : 0 ≤ row.b ∧ row.b < 16
  carry : 0 ≤ row.carry ∧ row.carry < 2
  pc : 0 ≤ row.pc ∧ row.pc < 16
  addr : 0 ≤ row.addr ∧ row.addr < 16
  input? : ∀ n ∈ row.input?, 0 ≤ n ∧ n < 16
  output? : ∀ n ∈ row.output?, 0 ≤ n ∧ n < 16

theorem TraceRow.ofStep_inRange (step : Nat) (addr : Int) (cell : Cell) (i : Instruction)
    (m : Machine) (inside : m.InRange) (place : 0 ≤ addr ∧ addr < 16) :
    (ofStep step addr cell i m).InRange where
  a := inside.cpu.a
  b := inside.cpu.b
  carry := inside.cpu.carry
  pc := inside.cpu.pc
  addr := place
  input? := inside.ports.lastIn
  output? := inside.ports.lastOut

namespace Progress

structure InRange (p : Progress) : Prop where
  machine : p.machine.InRange
  rows : ∀ row ∈ p.rows, row.InRange

theorem start_inRange : start.InRange := ⟨Machine.start_within, by simp [start]⟩

variable (rom : Rom) (devices : Devices) (options : RunOptions)

theorem Stepped.inRange {p q : Progress} {cell : Cell} {i : Instruction} {after : Machine}
    (stepped : p.Stepped rom devices options q cell i after) (inside : p.InRange) :
    q.InRange := by
  have kept := Machine.execute_within devices i ⟨p.machine.cpu, p.machine.ports.clear⟩
    ⟨inside.machine.cpu, Ports.clear_inRange _ inside.machine.ports⟩
  rw [stepped.executed] at kept
  have cpu : q.machine.cpu.InRange := by
    rw [stepped.cpu]
    exact { kept.cpu with }
  have ports : q.machine.ports.InRange := by
    rw [stepped.ports]
    exact kept.ports
  have place : 0 ≤ q.addr ∧ q.addr < 16 := by
    rw [stepped.addr]
    exact inside.machine.cpu.pc
  refine ⟨⟨cpu, ports⟩, ?_⟩
  rw [stepped.rows]
  split
  · exact List.forall_mem_cons.mpr
      ⟨TraceRow.ofStep_inRange _ _ cell i q.machine ⟨cpu, ports⟩ place, inside.rows⟩
  · exact inside.rows

theorem Leads.inRange {n : Nat} {p q : Progress} (leads : Leads rom devices options n p q)
    (inside : p.InRange) : q.InRange :=
  leads.keeps InRange
    (fun _ _ _ _ _ kept stepped => stepped.inRange rom devices options kept) inside

theorem InRange.failed {p q : Progress} {failure : Failure} (inside : p.InRange)
    (turned : p.machine.turn rom devices = (q.machine, some failure)) (rows : q.rows = p.rows) :
    q.InRange := by
  have machine := Machine.turn_within rom devices p.machine inside.machine
  rw [turned] at machine
  exact ⟨machine, rows ▸ inside.rows⟩

theorem iterate_inRange (budget : Nat) (p : Progress) (inside : p.InRange) :
    (p.iterate rom devices options budget).1.InRange := by
  apply iterate_keeps rom devices options InRange _ _ budget p inside
  · intro p q cell i after kept stepped
    exact stepped.inRange rom devices options kept
  · intro p q failure kept turned _ rows
    exact kept.failed rom devices turned rows

theorem iterate_failure (budget : Nat) (p q : Progress) (failure : Failure) (inside : p.InRange)
    (ran : p.iterate rom devices options budget = (q, some failure)) :
    (∃ fault, failure = .fault fault ∧ (fault.kind = .decode ∨ fault.kind = .inputOutOfRange)) ∨
      failure = .breach .longNumber ∨ devices.Raises failure := by
  rcases iterate_leads rom devices options budget p q _ ran with
    ⟨sound, _⟩ | ⟨_, n, before, same, _, leads, taken⟩
  · cases sound
  · cases same
    have kept := leads.inRange rom devices options inside
    obtain ⟨turned, _⟩ := step_some rom devices options before q failure taken
    obtain ⟨written, fails, _⟩ :=
      Machine.turn_fails rom devices before.machine q.machine failure kept.machine.cpu turned
    exact fails.own_or_raised.imp_right (Or.imp_left And.left)

end Progress

structure RunResult.InRange (result : RunResult) : Prop where
  cpu : result.machine.cpu.InRange
  outputs : ∀ n ∈ result.outputs, 0 ≤ n ∧ n < 16
  output : 0 ≤ result.output ∧ result.output < 16
  trace : ∀ row ∈ result.trace, row.InRange

theorem Progress.InRange.result {p : Progress} (inside : p.InRange) (stop : StopReason)
    (error? : Option Fault) : (p.result stop error?).InRange := by
  have written := inside.machine.ports.written
  refine ⟨inside.machine.cpu, ?_, ?_, ?_⟩
  · exact fun n listed => written n (List.mem_reverse.mp listed)
  · unfold RunResult.output Progress.result
    cases values : p.machine.ports.written with
    | nil => decide
    | cons n rest => exact written n (by simp [values])
  · exact fun row listed => inside.rows row (List.mem_reverse.mp listed)

/-- A result shows nothing out of range. If all faults that end a loop early are own to the machine
or raised by a device, an address outside of the memory is raised by a device. -/
theorem Progress.Finished.within {devices : Devices} {options : RunOptions}
    {program? : Option Program} {p : Progress} {failure? : Option Failure}
    {answer : Except Breach RunResult} (finished : Finished options program? (p, failure?) answer)
    (inside : p.InRange)
    (own_or_raised : ∀ fault, failure? = some (.fault fault) →
      (fault.kind = .decode ∨ fault.kind = .inputOutOfRange) ∨ devices.Raises (.fault fault))
    (result : RunResult) (ok : answer = .ok result) :
    result.InRange ∧ ∀ shown ∈ result.error?, shown.kind = .romAccess →
      ∃ fault, fault.kind = .romAccess ∧ devices.Raises (.fault fault) := by
  cases finished with
  | failed _ fault =>
      cases ok
      refine ⟨inside.result _ _, ?_⟩
      rintro shown ⟨⟩ kind
      rw [p.locate_kind program? fault] at kind
      rcases own_or_raised fault rfl with (decode | range) | raised
      · cases kind.symm.trans decode
      · cases kind.symm.trans range
      · exact ⟨fault, kind, raised⟩
  | broken => cases ok
  | halted | spent =>
      cases ok
      exact ⟨inside.result _ _, by rintro shown ⟨⟩⟩
  | exceeded =>
      cases ok
      refine ⟨inside.result _ _, ?_⟩
      rintro shown ⟨⟩ kind
      rw [p.locate_kind program? (stepLimitFault options.maxSteps)] at kind
      cases kind

/-- At every point of a run, and in its result, all registers and all port values are within their
ranges. The checks of a turn change nothing, and a turn that is reached fails by itself only for a
word that does not decode or a sample that is no nibble, which it cannot report if the sample cannot
be shown. So an address outside of the memory, an operand out of range, a code without an
instruction and anything else that leaves a run is raised by a device, if at all. -/
theorem run_stays_inRange (rom : Rom) (supplier? : Option Supplier) (sink? : Option Sink)
    (options : RunOptions) (program? : Option Program) :
    (∀ budget,
      (Progress.start.iterate rom (options.devices supplier? sink?) options budget).1.InRange) ∧
    (∀ n m, Machine.after? rom (options.devices supplier? sink?) n = some m →
      m.checkedTurn rom (options.devices supplier? sink?) =
        m.turn rom (options.devices supplier? sink?) ∧
      ∀ left failure,
        m.checkedTurn rom (options.devices supplier? sink?) = (left, some failure) →
        (∃ fault, failure = .fault fault ∧
          (fault.kind = .decode ∨ fault.kind = .inputOutOfRange)) ∨
        (failure = .breach .longNumber ∧
          m.Stumbles rom (options.devices supplier? sink?)) ∨
        (options.devices supplier? sink?).Raises failure) ∧
    match run rom supplier? sink? options program? with
    | .ok result => result.InRange ∧ ∀ shown ∈ result.error?, shown.kind = .romAccess →
        ∃ fault, fault.kind = .romAccess ∧
          (options.devices supplier? sink?).Raises (.fault fault)
    | .error breach =>
        (breach = .longNumber ∧ options.Stumbles rom (options.devices supplier? sink?)) ∨
        (options.devices supplier? sink?).Raises (.breach breach) := by
  have inside (budget : Nat) := Progress.iterate_inRange rom (options.devices supplier? sink?)
    options budget .start Progress.start_inRange
  refine ⟨inside, ?_, ?_⟩
  · intro n m reached
    have same := Machine.checkedTurn_eq_turn rom (options.devices supplier? sink?) m
    refine ⟨same, ?_⟩
    intro left failure failed
    rw [same] at failed
    have range := Machine.after_inRange _ rom n m reached
    obtain ⟨written, fails, _⟩ := Machine.turn_fails rom _ m left failure range failed
    exact fails.own_or_raised
  · have ending := run_ending rom supplier? sink? options program?
    have finished :=
      Progress.runWith_finished rom (options.devices supplier? sink?) options program?
    cases ran : run rom supplier? sink? options program? with
    | ok result =>
        apply finished.within (inside options.maxSteps) _ result ran
        intro fault failed
        rcases Progress.iterate_failure rom (options.devices supplier? sink?) options
            options.maxSteps .start _ _ Progress.start_inRange (Prod.ext rfl failed) with
          ⟨_, same, kind⟩ | impossible | raised
        · cases same
          exact .inl kind
        · cases impossible
        · exact .inr raised
    | error breach =>
        rw [ran] at ending
        exact ending.broken_cause

def twoSamples : Rom := ⟨.byte 0x20 :: .byte 0x60 :: List.replicate 14 (.byte 0xF0), rfl⟩

def rogueSupplier : Supplier := fun asked =>
  if asked = 0 then .ok (.int 9) else .error (.fault (Rom.accessFault 99))

/-- An address outside of the memory is reported, but it is the device that made it up. -/
theorem run_stays_inRange_rogue :
    ∃ result shown, run twoSamples (some rogueSupplier) none .standard none = .ok result ∧
      result.error? = some shown ∧ shown.kind = .romAccess ∧ result.machine.cpu.a = 9 ∧
      result.InRange ∧ ∃ fault, fault.kind = .romAccess ∧
        (RunOptions.standard.devices (some rogueSupplier) none).Raises (.fault fault) := by
  have evaluated : ∃ result shown,
      run twoSamples (some rogueSupplier) none .standard none = .ok result ∧
      result.error? = some shown ∧ shown.kind = .romAccess ∧ result.machine.cpu.a = 9 :=
    ⟨_, _, rfl, rfl, rfl, rfl⟩
  obtain ⟨result, shown, ran, error, kind, a⟩ := evaluated
  have within := (run_stays_inRange twoSamples (some rogueSupplier) none .standard none).2.2
  rw [ran] at within
  exact ⟨result, shown, ran, error, kind, a, within.1, within.2 shown error kind⟩

end FourBit
