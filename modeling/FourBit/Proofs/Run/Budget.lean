import FourBit.Proofs.Run.Range

namespace FourBit

namespace Machine

variable (rom : Rom) (devices : Devices)

theorem execute_written (i : Instruction) (m : Machine) :
    m.ports.written <:+ (execute devices i m).1.ports.written := by
  rcases execute_ports devices i m with same | read | ⟨value, written⟩
  · rw [same]
  · rw [read, Ports.read_written]
  · rw [written, Ports.write_written]
    exact List.suffix_cons _ _

theorem turn_written (m : Machine) : m.ports.written <:+ (m.turn rom devices).1.ports.written := by
  unfold turn
  split
  · exact List.suffix_refl _
  · rename_i cell i fetched
    exact execute_written devices i ⟨m.cpu, m.ports.clear⟩

end Machine

structure TraceRow.Shows (row : TraceRow) (steps : Nat) (cpu : Cpu) : Prop where
  step : row.step = steps
  a : row.a = cpu.a
  b : row.b = cpu.b
  carry : row.carry = cpu.carry
  pc : row.pc = cpu.pc

namespace Progress

variable (rom : Rom) (devices : Devices) (options : RunOptions)

structure Extends (p q : Progress) : Prop where
  rows : p.rows <:+ q.rows
  written : p.machine.ports.written <:+ q.machine.ports.written

theorem Stepped.extends {p q : Progress} {cell : Cell} {i : Instruction} {after : Machine}
    (stepped : p.Stepped rom devices options q cell i after) : p.Extends q := by
  have written := Machine.execute_written devices i ⟨p.machine.cpu, p.machine.ports.clear⟩
  rw [stepped.executed] at written
  constructor
  · rw [stepped.rows]
    split
    · exact List.suffix_cons _ _
    · exact List.suffix_refl _
  · rw [stepped.ports]
    exact written

theorem Extends.trans {p q r : Progress} (first : p.Extends q) (second : q.Extends r) :
    p.Extends r :=
  ⟨first.rows.trans second.rows, first.written.trans second.written⟩

theorem iterate_extends (budget : Nat) (p : Progress) :
    p.Extends (p.iterate rom devices options budget).1 := by
  apply iterate_keeps rom devices options p.Extends
  · intro q r cell i after earlier stepped
    exact earlier.trans (stepped.extends rom devices options)
  · intro before q failure earlier turned _ rows
    have written := Machine.turn_written rom devices before.machine
    rw [turned] at written
    exact earlier.trans ⟨rows ▸ List.suffix_refl _, written⟩
  · exact ⟨List.suffix_refl _, List.suffix_refl _⟩

structure Recorded (p : Progress) : Prop where
  count : p.rows.length = p.steps
  newest : ∀ row ∈ p.rows.head?, row.Shows p.steps p.machine.cpu

theorem start_recorded : start.Recorded := ⟨rfl, by simp [start]⟩

theorem Stepped.recorded {p q : Progress} {cell : Cell} {i : Instruction} {after : Machine}
    (stepped : p.Stepped rom devices options q cell i after) (tracing : options.trace = true)
    (recorded : p.Recorded) : q.Recorded := by
  have rows := stepped.rows
  rw [tracing, if_pos rfl] at rows
  constructor
  · rw [rows, List.length_cons, recorded.count, stepped.steps]
  · rw [rows]
    rintro row ⟨⟩
    exact ⟨rfl, rfl, rfl, rfl, rfl⟩

theorem Leads.recorded {n : Nat} {p q : Progress} (leads : Leads rom devices options n p q)
    (tracing : options.trace = true) (recorded : p.Recorded) : q.Recorded :=
  leads.keeps Recorded
    (fun _ _ _ _ _ kept stepped => stepped.recorded rom devices options tracing kept) recorded

theorem recorded_of_unhalted (tracing : options.trace = true) (budget : Nat) (p : Progress)
    (ran : start.iterate rom devices options budget = (p, none))
    (running : p.machine.cpu.halted = false) : p.steps = budget ∧ p.Recorded := by
  rcases iterate_leads rom devices options budget start p none ran with
    ⟨_, n, _, leads, halted | spent⟩ | ⟨failure, _, _, failed, _⟩
  · cases halted.symm.trans running
  · have steps := leads.steps
    have none : start.steps = 0 := rfl
    exact ⟨by omega, leads.recorded rom devices options tracing start_recorded⟩
  · cases failed

end Progress

/-- A run was cut off by its budget, whether or not that is an error. -/
def RunResult.OutOfBudget (result : RunResult) : Prop :=
  result.stop = .stepBudget ∨ ∃ fault ∈ result.error?, fault.kind = .stepLimitExceeded

/-- A run goes on as another with more steps, whose trace and outputs begin with its own. -/
structure RunResult.ContinuedBy (short long : RunResult) : Prop where
  trace : short.trace <+: long.trace
  outputs : short.outputs <+: long.outputs
  row : ∃ row, long.trace[short.steps - 1]? = some row ∧
    row.Shows short.steps short.machine.cpu

theorem Progress.Recorded.continuedBy {p q : Progress} (recorded : p.Recorded)
    (extended : p.Extends q) (moved : 0 < p.steps) (short long : RunResult)
    (shortEnds : short.machine = p.machine ∧ short.steps = p.steps ∧
      short.trace = p.rows.reverse)
    (longEnds : long.machine = q.machine ∧ long.steps = q.steps ∧ long.trace = q.rows.reverse) :
    short.ContinuedBy long := by
  obtain ⟨shortMachine, shortSteps, shortTrace⟩ := shortEnds
  obtain ⟨longMachine, _, longTrace⟩ := longEnds
  constructor
  · rw [shortTrace, longTrace]
    exact List.reverse_prefix.mpr extended.rows
  · rw [RunResult.outputs, RunResult.outputs, shortMachine, longMachine]
    exact List.reverse_prefix.mpr extended.written
  · obtain ⟨added, same⟩ := extended.rows
    have count := recorded.count
    cases rows : p.rows with
    | nil =>
        rw [rows, List.length_nil] at count
        omega
    | cons row older =>
        have shown : long.trace = older.reverse ++ row :: added.reverse := by
          rw [longTrace, ← same, rows]
          simp
        have place : short.steps - 1 = older.reverse.length := by
          rw [rows, List.length_cons] at count
          rw [List.length_reverse]
          omega
        refine ⟨row, ?_, ?_⟩
        · rw [shown, place, List.getElem?_append_right (Nat.le_refl _), Nat.sub_self]
          rfl
        · rw [shortSteps, shortMachine]
          exact recorded.newest row (by rw [rows]; rfl)

theorem Progress.fault_replaying (rom : Rom) (inputs : List Datum) (options : RunOptions)
    (budget : Nat) (q : Progress) (failure : Failure)
    (ran : start.iterate rom (.replaying inputs) options budget = (q, some failure)) (fault : Fault)
    (same : failure = .fault fault) : fault.kind = .decode ∨ fault.kind = .inputOutOfRange := by
  rcases iterate_failure rom _ options budget start q failure start_inRange ran with
    ⟨_, known, own⟩ | broken | raises
  · cases known.symm.trans same
    exact own
  · cases broken.symm.trans same
  · exact (Devices.replaying_silent inputs failure raises).elim

/-- A larger budget takes up the loop where a smaller one has left it. -/
theorem Progress.iterate_larger (rom : Rom) (devices : Devices) (first second : RunOptions)
    (policy : first.policy = second.policy) (trace : first.trace = second.trace) (m n : Nat)
    (larger : m ≤ n) (p : Progress) :
    p.iterate rom devices second n =
      match p.iterate rom devices first m with
      | (q, none) => q.iterate rom devices second (n - m)
      | (q, some failure) => (q, some failure) := by
  have split := iterate_add rom devices second m (n - m) p
  rw [Nat.add_sub_cancel' larger] at split
  rw [iterate_congr rom devices first second policy trace m p]
  exact split

section Twice

open Progress (Finished)

variable {first second : RunOptions} {program? : Option Program} {p : Progress}
  {again : Except Breach RunResult}

theorem Progress.Finished.repeats_failed {failure : Failure} {result : RunResult}
    (shorter : Finished first program? (p, some failure) (.ok result))
    (longer : Finished second program? (p, some failure) again)
    (own : ∀ fault, failure = .fault fault →
      fault.kind = .decode ∨ fault.kind = .inputOutOfRange) :
    again = .ok result ∧ ¬ result.OutOfBudget ∧
      ∃ shown ∈ result.error?, shown.kind = .decode ∨ shown.kind = .inputOutOfRange := by
  cases shorter with
  | failed _ fault =>
      have kind := own fault rfl
      rw [← p.locate_kind program? fault] at kind
      cases longer
      refine ⟨rfl, ?_, _, rfl, kind⟩
      rintro (⟨⟨⟩⟩ | ⟨shown, ⟨⟩, limit⟩)
      rw [limit] at kind
      rcases kind with ⟨⟨⟩⟩ | ⟨⟨⟩⟩

theorem Progress.Finished.repeats_halted {result : RunResult}
    (shorter : Finished first program? (p, none) (.ok result))
    (longer : Finished second program? (p, none) again) (halted : p.machine.cpu.halted = true) :
    again = .ok result ∧ ¬ result.OutOfBudget ∧ result.halted = true := by
  cases shorter with
  | halted _ _ =>
      cases longer with
      | halted _ _ =>
          refine ⟨rfl, ?_, halted⟩
          rintro (⟨⟨⟩⟩ | ⟨shown, ⟨⟩, limit⟩)
      | spent _ running policy | exceeded _ running policy => cases halted.symm.trans running
  | spent _ running policy | exceeded _ running policy => cases halted.symm.trans running

theorem Progress.Finished.cut_off {result : RunResult}
    (finished : Finished first program? (p, none) (.ok result))
    (running : p.machine.cpu.halted = false) : result.OutOfBudget := by
  cases finished with
  | halted _ halted => cases halted.symm.trans running
  | spent _ _ policy => exact .inl rfl
  | exceeded _ _ policy => exact .inr ⟨_, rfl, p.locate_kind program? _⟩

end Twice

def RunOptions.enlarged (options : RunOptions) (budget : Nat) (larger : options.maxSteps ≤ budget) :
    RunOptions :=
  { options with maxSteps := budget, positive := Nat.lt_of_lt_of_le options.positive larger }

/-- A result is the result of every larger budget too, or it was cut off and is continued. -/
theorem repeated_or_continued (rom : Rom) (options : RunOptions) (program? : Option Program)
    (tracing : options.trace = true) (budget : Nat) (larger : options.maxSteps ≤ budget)
    (short : RunResult) (once : run rom none none options program? = .ok short) :
    (¬ short.OutOfBudget ∧
      (short.halted = true ∨
        ∃ fault ∈ short.error?, fault.kind = .decode ∨ fault.kind = .inputOutOfRange) ∧
      run rom none none (options.enlarged budget larger) program? = .ok short) ∨
    (short.OutOfBudget ∧ short.steps = options.maxSteps ∧
      ∀ long, run rom none none (options.enlarged budget larger) program? = .ok long →
        short.ContinuedBy long) := by
  have first := Progress.finished_of_run rom options none none program? short once
  have second := Progress.runWith_finished rom (.replaying options.inputs)
    (options.enlarged budget larger) program?
  have loop := Progress.iterate_larger rom (.replaying options.inputs) options
    (options.enlarged budget larger) rfl rfl options.maxSteps budget larger .start
  have count : (options.enlarged budget larger).maxSteps = budget := rfl
  have devices : options.devices none none = .replaying options.inputs := rfl
  rw [devices] at first
  rw [count, loop] at second
  -- How the shorter loop ended decides: only one that neither failed nor halted goes on.
  cases ran : Progress.start.iterate rom (.replaying options.inputs) options options.maxSteps with
  | mk p failure? =>
      rw [ran] at first second
      cases failure? with
      | some failure =>
          obtain ⟨again, own, shown⟩ := first.repeats_failed second
            (Progress.fault_replaying rom options.inputs options options.maxSteps p failure ran)
          exact .inl ⟨own, .inr shown, again⟩
      | none =>
          cases halted : p.machine.cpu.halted with
          | true =>
              simp only [Progress.iterate_halted rom _ _ _ p halted] at second
              obtain ⟨again, own, shown⟩ := first.repeats_halted second halted
              exact .inl ⟨own, .inl shown, again⟩
          | false =>
              obtain ⟨steps, recorded⟩ :=
                Progress.recorded_of_unhalted rom _ _ tracing options.maxSteps p ran halted
              refine .inr ⟨first.cut_off halted, first.ends.2.1.trans steps, ?_⟩
              intro long again
              have answer : runWith rom (.replaying options.inputs)
                  (options.enlarged budget larger) program? = .ok long := again
              have extended := Progress.iterate_extends rom (.replaying options.inputs)
                (options.enlarged budget larger) (budget - options.maxSteps) p
              have moved : 0 < p.steps := steps ▸ options.positive
              rw [answer] at second
              exact recorded.continuedBy extended moved short long first.ends second.ends

/-- Samples being replayed and all steps being traced, a run comes to a result unless it stumbles at
a sample that cannot be shown, and then it does so with any larger budget. If it was not cut off by
its budget it has halted, met a word that does not decode or met a sample that is no nibble, and any
larger budget gives the same result. One that was cut off has taken all its steps, and with a larger
budget the trace and the outputs begin with the same rows and values, and the row of its last step
shows the registers that it ended with, unless the longer run stumbles. -/
theorem larger_budget_extends (rom : Rom) (options : RunOptions) (program? : Option Program)
    (tracing : options.trace = true) (budget : Nat) (larger : options.maxSteps ≤ budget) :
    (options.Stumbles rom (.replaying options.inputs) →
      run rom none none options program? = .error .longNumber ∧
      run rom none none (options.enlarged budget larger) program? = .error .longNumber) ∧
    (¬ options.Stumbles rom (.replaying options.inputs) →
      ∃ short, run rom none none options program? = .ok short ∧
        (¬ short.OutOfBudget →
          (short.halted = true ∨
            ∃ fault ∈ short.error?, fault.kind = .decode ∨ fault.kind = .inputOutOfRange) ∧
          run rom none none (options.enlarged budget larger) program? = .ok short) ∧
        (short.OutOfBudget → short.steps = options.maxSteps ∧
          ((options.enlarged budget larger).Stumbles rom (.replaying options.inputs) →
            run rom none none (options.enlarged budget larger) program? = .error .longNumber) ∧
          (¬ (options.enlarged budget larger).Stumbles rom (.replaying options.inputs) →
            ∃ long, run rom none none (options.enlarged budget larger) program? = .ok long ∧
              short.ContinuedBy long))) := by
  have silent : ∀ failure, (Devices.replaying options.inputs).Raises failure →
      ∃ fault, failure = .fault fault :=
    fun failure raises => (Devices.replaying_silent options.inputs failure raises).elim
  have stumbled (wide : RunOptions) :=
    runWith_of_stumbles rom (.replaying options.inputs) wide program?
  constructor
  · intro stumbles
    exact ⟨stumbled options stumbles, stumbled _ (stumbles.larger rfl larger)⟩
  · intro sure
    obtain ⟨short, once⟩ := runWith_ok rom (.replaying options.inputs) options program? silent sure
    refine ⟨short, once, ?_⟩
    rcases repeated_or_continued rom options program? tracing budget larger short once with
      ⟨own, shown, again⟩ | ⟨cut, steps, continued⟩
    · exact ⟨fun _ => ⟨shown, again⟩, fun cut => (own cut).elim⟩
    · refine ⟨fun own => (own cut).elim, fun _ => ⟨steps, stumbled _, ?_⟩⟩
      intro sure'
      obtain ⟨long, again⟩ := runWith_ok rom (.replaying options.inputs)
        (options.enlarged budget larger) program? silent sure'
      exact ⟨long, again, continued long again⟩

def threeAndSample : Rom :=
  ⟨[.byte 0xB3, .byte 0x60, .byte 0x90, .byte 0xF3] ++ List.replicate 12 (.byte 0x80), rfl⟩

theorem larger_budget_extends_threeAndSample :
    ∃ short long,
      run threeAndSample none none ⟨2, by decide, .selfLoop, true, [.int 7]⟩ none = .ok short ∧
      short.OutOfBudget ∧ short.steps = 2 ∧ short.ContinuedBy long ∧
      run threeAndSample none none ⟨5, by decide, .selfLoop, true, [.int 7]⟩ none = .ok long ∧
      long.halted = true ∧ long.steps = 4 ∧ long.outputs = [3, 7] ∧
      run threeAndSample none none ⟨9, by decide, .selfLoop, true, [.int 7]⟩ none = .ok long := by
  have evaluated : ∃ short long,
      run threeAndSample none none ⟨2, by decide, .selfLoop, true, [.int 7]⟩ none = .ok short ∧
      run threeAndSample none none ⟨5, by decide, .selfLoop, true, [.int 7]⟩ none = .ok long ∧
      short.OutOfBudget ∧ long.halted = true ∧ long.steps = 4 ∧ long.outputs = [3, 7] ∧
      long.stop = .halt ∧ long.error? = none :=
    ⟨_, _, rfl, rfl, .inr ⟨_, rfl, rfl⟩, rfl, rfl, rfl, rfl, rfl⟩
  obtain ⟨short, long, two, five, cut, halted, steps, outputs, stop, sound⟩ := evaluated
  have own : ¬ long.OutOfBudget := by
    rintro (spent | ⟨fault, raised, _⟩)
    · cases stop.symm.trans spent
    · cases sound.symm.trans raised
  have sure (budget : Nat) (positive : 0 < budget) :
      ¬ RunOptions.Stumbles ⟨budget, positive, .selfLoop, true, [.int 7]⟩ threeAndSample
        (.replaying [.int 7]) := by
    apply RunOptions.sure_of_shown _ threeAndSample none
    intro sample listed
    cases List.mem_singleton.mp listed
    exact Datum.isShown_of_nibble (Datum.nibble_of_fin 7)
  obtain ⟨_, first, _, onward⟩ := (larger_budget_extends threeAndSample
    ⟨2, by decide, .selfLoop, true, [.int 7]⟩ none rfl 5 (by decide)).2 (sure 2 (by decide))
  cases two.symm.trans first
  obtain ⟨_, _, continued⟩ := onward cut
  obtain ⟨_, second, extended⟩ := continued (sure 5 (by decide))
  cases five.symm.trans second
  obtain ⟨_, first', same, _⟩ := (larger_budget_extends threeAndSample
    ⟨5, by decide, .selfLoop, true, [.int 7]⟩ none rfl 9 (by decide)).2 (sure 5 (by decide))
  cases five.symm.trans first'
  exact ⟨short, long, two, cut, (onward cut).1, extended, five, halted, steps, outputs, (same own).2⟩

def addAndSample : Rom := ⟨.byte 0x01 :: .byte 0x20 :: List.replicate 14 (.byte 0xF0), rfl⟩

/-- The run is cut off in front of a sample that cannot be shown, and with one step more there is no
result which could continue it. -/
theorem long_sample_ends_extension :
    ∃ short,
      run addAndSample none none ⟨1, by decide, .selfLoop, true, [.firstLong]⟩ none = .ok short ∧
      short.OutOfBudget ∧
      run addAndSample none none ⟨2, by decide, .selfLoop, true, [.firstLong]⟩ none =
        .error .longNumber := by
  refine ⟨_, rfl, .inr ⟨_, rfl, rfl⟩, ?_⟩
  apply runWith_of_stumbles
  exact ⟨1, _, by decide, rfl, _, ⟨.inA, 0⟩, .firstLong, rfl, .inl rfl, rfl,
    Datum.firstLong_hidden⟩

end FourBit
