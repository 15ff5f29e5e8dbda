import FourBit.Proofs.Run.Range

/-! The trace of a run: a row for each step, which tells where the step was fetched, what it was and
what it left behind; and a run is the same whether or not its trace is kept. -/

namespace FourBit

structure Shown where
  a : Int
  b : Int
  carry : Int
  pc : Int
  deriving DecidableEq, Repr

def Cpu.shown (cpu : Cpu) : Shown := ⟨cpu.a, cpu.b, cpu.carry, cpu.pc⟩

def TraceRow.shown (row : TraceRow) : Shown := ⟨row.a, row.b, row.carry, row.pc⟩

/-- The registers in the last of some rows, and zeros if there is none. -/
def lastShown (rows : List TraceRow) : Shown :=
  (rows.getLast?.map TraceRow.shown).getD ⟨0, 0, 0, 0⟩

namespace Instruction

def input? (i : Instruction) (left : Shown) : Option Int :=
  match i.opcode with
  | .inA => some left.a
  | .inB => some left.b
  | _ => none

def output? (i : Instruction) (left : Shown) : Option Int :=
  match i.opcode with
  | .outB => some left.b
  | .outIm => some (i.operand : Int)
  | _ => none

def isLoading (i : Instruction) : Bool :=
  match i.opcode with
  | .outB => false
  | .outIm => false
  | .jnc => false
  | .jmp => false
  | _ => true

end Instruction

/-- A row records the step after a number of others: it stands where the registers before it point,
and has the word there, what that says in assembly, and what the step did. -/
structure TraceRow.Records (rom : Rom) (steps : Nat) (before : Shown) (row : TraceRow) : Prop where
  step : row.step = steps + 1
  addr : row.addr = before.pc
  word : rom.read row.addr = .ok row.cell
  decoded : Instruction.decode (row.cell.value : Nat) = .ok row.instruction
  text : row.instruction.text = Instruction.disassemble (row.cell.value : Nat)
  input : row.input? = row.instruction.input? row.shown
  output : row.output? = row.instruction.output? row.shown
  kept : row.instruction.isLoading = false → row.a = before.a ∧ row.b = before.b

/-- Each of some rows records the step after those of the rows before it. -/
def Recording (rom : Rom) (rows : List TraceRow) : Prop :=
  ∀ before row after, rows = before ++ row :: after →
    row.Records rom before.length (lastShown before)

theorem Recording.concat {rom : Rom} {rows : List TraceRow} {newest : TraceRow}
    (recording : Recording rom rows)
    (last : newest.Records rom rows.length (lastShown rows)) :
    Recording rom (rows ++ [newest]) := by
  intro before row after split
  rcases List.eq_nil_or_concat' after with rfl | ⟨rest, final, rfl⟩
  · obtain ⟨rfl, same⟩ := List.append_inj' split rfl
    cases same
    exact last
  · rw [← List.cons_append, ← List.append_assoc] at split
    exact recording before row rest (List.append_inj' split rfl).1

theorem lastShown_concat (rows : List TraceRow) (row : TraceRow) :
    lastShown (rows ++ [row]) = row.shown := by
  simp only [lastShown, List.getLast?_concat, Option.map_some, Option.getD_some]

theorem Ports.write_shown (sink? : Option Sink) (value : Int) (ports : Ports) :
    (ports.write sink? value).1.lastIn = ports.lastIn ∧
      (ports.write sink? value).1.lastOut = some (nibble value) := by
  cases sink? <;> exact ⟨rfl, rfl⟩

namespace Machine

variable (devices : Devices)

theorem receive_shown (register : Register) (m after : Machine)
    (received : m.receive devices register = (after, none)) :
    after.ports.lastIn = some (after.cpu.get register) ∧
      after.ports.lastOut = m.ports.lastOut := by
  obtain ⟨ports, value, accepted, rfl⟩ := receive_ok devices register m after received
  obtain ⟨sample, n, _, _, rfl, rfl⟩ := Ports.read_ok _ _ _ _ accepted
  have whole := nibble_operand n
  cases register <;> exact ⟨congrArg some whole.symm, rfl⟩

theorem emit_shown (value : Int) (m after : Machine) (small : 0 ≤ value ∧ value < 16)
    (emitted : m.emit devices value = (after, none)) :
    after.ports.lastIn = m.ports.lastIn ∧ after.ports.lastOut = some value ∧
      after.cpu.a = m.cpu.a ∧ after.cpu.b = m.cpu.b := by
  obtain ⟨ports, accepted, rfl⟩ := emit_ok devices value m after emitted
  have whole := nibble_of_range value small.1 small.2
  obtain ⟨quiet, written⟩ := Ports.write_shown devices.sink? value m.ports
  rw [accepted] at quiet written
  exact ⟨quiet, written.trans (congrArg some whole), rfl, rfl⟩

theorem execute_shown (i : Instruction) (m after : Machine) (inside : m.cpu.InRange)
    (executed : execute devices i ⟨m.cpu, m.ports.clear⟩ = (after, none)) :
    after.ports.lastIn = i.input? after.cpu.shown ∧
      after.ports.lastOut = i.output? after.cpu.shown ∧
      (i.isLoading = false → after.cpu.a = m.cpu.a ∧ after.cpu.b = m.cpu.b) := by
  obtain ⟨opcode, operand⟩ := i
  cases opcode with
  | inA | inB =>
      obtain ⟨taken, quiet⟩ := receive_shown devices _ _ after executed
      exact ⟨taken, quiet, by rintro ⟨⟩⟩
  | outB =>
      obtain ⟨quiet, written, a, b⟩ := emit_shown devices m.cpu.b _ after inside.b executed
      exact ⟨quiet, written.trans (congrArg some b.symm), fun _ => ⟨a, b⟩⟩
  | outIm =>
      obtain ⟨quiet, written, a, b⟩ :=
        emit_shown devices operand _ after (fin_range operand) executed
      exact ⟨quiet, written, fun _ => ⟨a, b⟩⟩
  | jnc =>
      cases executed
      refine ⟨rfl, rfl, fun _ => ?_⟩
      simp only
      split <;> exact ⟨rfl, rfl⟩
  | jmp =>
      cases executed
      exact ⟨rfl, rfl, fun _ => ⟨rfl, rfl⟩⟩
  | addA | movAB | movA | movBA | addB | movB =>
      cases executed
      exact ⟨rfl, rfl, by rintro ⟨⟩⟩

end Machine

namespace Progress

variable (rom : Rom) (devices : Devices) (options : RunOptions)

/-- The rows so far record all steps so far, and the last one shows the registers as they are. -/
structure Chronicled (p : Progress) : Prop where
  count : p.rows.length = p.steps
  shown : p.machine.cpu.shown = lastShown p.rows.reverse
  recording : Recording rom p.rows.reverse

theorem start_chronicled : start.Chronicled rom := by
  refine ⟨rfl, rfl, ?_⟩
  intro before row after split
  cases before <;> cases split

theorem Stepped.records {p q : Progress} {cell : Cell} {i : Instruction} {after : Machine}
    (stepped : p.Stepped rom devices options q cell i after) (inside : p.InRange) :
    (TraceRow.ofStep q.steps q.addr cell i q.machine).Records rom p.steps p.machine.cpu.shown := by
  obtain ⟨word, decoded⟩ := fetch_ok rom _ cell i stepped.fetched
  obtain ⟨input, output, kept⟩ :=
    Machine.execute_shown devices i p.machine after inside.machine.cpu stepped.executed
  have same : q.machine.cpu.shown = after.cpu.shown := by rw [stepped.cpu]; rfl
  constructor
  · exact stepped.steps
  · exact stepped.addr
  · rw [← stepped.addr] at word
    exact word
  · exact decoded
  · simp only [TraceRow.ofStep, Instruction.disassemble, decoded]
  · rw [← stepped.ports, ← same] at input
    exact input
  · rw [← stepped.ports, ← same] at output
    exact output
  · intro quiet
    have registers := kept quiet
    have a : q.machine.cpu.a = after.cpu.a := congrArg Shown.a same
    have b : q.machine.cpu.b = after.cpu.b := congrArg Shown.b same
    exact ⟨a.trans registers.1, b.trans registers.2⟩

theorem Stepped.chronicled {p q : Progress} {cell : Cell} {i : Instruction} {after : Machine}
    (stepped : p.Stepped rom devices options q cell i after) (tracing : options.trace = true)
    (inside : p.InRange) (chronicled : p.Chronicled rom) : q.Chronicled rom := by
  have newest := stepped.records rom devices options inside
  have rows := congrArg List.reverse stepped.rows
  rw [tracing, if_pos rfl, List.reverse_cons] at rows
  constructor
  · rw [← List.length_reverse, rows, List.length_append, List.length_reverse, chronicled.count,
      stepped.steps]
    rfl
  · rw [rows, lastShown_concat]
    rfl
  · rw [rows]
    apply chronicled.recording.concat
    rw [List.length_reverse, chronicled.count, ← chronicled.shown]
    exact newest

theorem Chronicled.failed {p q : Progress} {failure : Failure} (chronicled : p.Chronicled rom)
    (inside : p.InRange) (turned : p.machine.turn rom devices = (q.machine, some failure))
    (steps : q.steps = p.steps) (rows : q.rows = p.rows) : q.Chronicled rom := by
  obtain ⟨written, _, leaves⟩ :=
    Machine.turn_fails rom devices p.machine q.machine failure inside.machine.cpu turned
  have shown : q.machine.cpu.shown = p.machine.cpu.shown := by
    rw [leaves.cpu]
    rfl
  refine ⟨?_, ?_, ?_⟩
  · rw [rows, steps]
    exact chronicled.count
  · rw [shown, rows]
    exact chronicled.shown
  · rw [rows]
    exact chronicled.recording

theorem iterate_chronicled (tracing : options.trace = true) (budget : Nat) (p : Progress)
    (inside : p.InRange) (chronicled : p.Chronicled rom) :
    (p.iterate rom devices options budget).1.Chronicled rom := by
  have both := iterate_keeps rom devices options (fun q => q.InRange ∧ q.Chronicled rom) ?_ ?_
    budget p ⟨inside, chronicled⟩
  · exact both.2
  · intro q r cell i after kept stepped
    exact ⟨stepped.inRange rom devices options kept.1,
      stepped.chronicled rom devices options tracing kept.1 kept.2⟩
  · intro q r failure kept turned steps rows
    exact ⟨kept.1.failed rom devices turned rows,
      kept.2.failed rom devices kept.1 turned steps rows⟩

theorem length_trace (tracing : options.trace = true) (program? : Option Program)
    (result : RunResult) (ran : runWith rom devices options program? = .ok result) :
    result.trace.length = result.steps := by
  have finished := runWith_finished rom devices options program?
  have chronicled := iterate_chronicled rom devices options tracing options.maxSteps start
    start_inRange (start_chronicled rom)
  rw [ran] at finished
  obtain ⟨_, steps, trace⟩ := finished.ends
  rw [trace, steps, List.length_reverse, chronicled.count]

def untraced (p : Progress) : Progress := { p with rows := [] }

theorem step_untraced (p : Progress) :
    p.untraced.step rom devices { options with trace := false } =
      ((p.step rom devices options).1.untraced, (p.step rom devices options).2) := by
  unfold step
  simp only [untraced]
  split
  · rfl
  · split <;> rfl

theorem iterate_untraced (budget : Nat) (p : Progress) :
    p.untraced.iterate rom devices { options with trace := false } budget =
      ((p.iterate rom devices options budget).1.untraced,
        (p.iterate rom devices options budget).2) := by
  induction budget generalizing p with
  | zero => rfl
  | succ budget ih =>
      have flag : p.untraced.machine.cpu.halted = p.machine.cpu.halted := rfl
      simp only [iterate, flag, step_untraced]
      split
      · rfl
      · rcases p.step rom devices options with ⟨q, _ | failure⟩
        · exact ih q
        · rfl

end Progress

def RunResult.untraced (result : RunResult) : RunResult := { result with trace := [] }

theorem runWith_untraced (rom : Rom) (devices : Devices) (options : RunOptions)
    (program? : Option Program) :
    runWith rom devices { options with trace := false } program? =
      (runWith rom devices options program?).map RunResult.untraced := by
  have loop : Progress.start.iterate rom devices { options with trace := false } options.maxSteps =
      ((Progress.start.iterate rom devices options options.maxSteps).1.untraced,
        (Progress.start.iterate rom devices options options.maxSteps).2) :=
    Progress.iterate_untraced rom devices options options.maxSteps .start
  unfold runWith
  simp only [loop]
  rcases Progress.start.iterate rom devices options options.maxSteps with ⟨p, _ | fault | breach⟩
  · have flag : p.untraced.machine.cpu.halted = p.machine.cpu.halted := rfl
    simp only [flag]
    split
    · rfl
    · split <;> rfl
  · rfl
  · rfl

/-- With a trace each step of a run is recorded, however the run ends: as many rows as steps,
numbered from one, each standing where the one before it points, with the word in the memory there,
its assembly text, and what the step took in, wrote out and left in the registers; the last row
shows the registers in the end. Without a trace the run is the same. -/
theorem trace_records_run (rom : Rom) (supplier? : Option Supplier) (sink? : Option Sink)
    (options : RunOptions) (program? : Option Program) (tracing : options.trace = true) :
    (∀ result, run rom supplier? sink? options program? = .ok result →
      result.trace.length = result.steps ∧ Recording rom result.trace ∧
      result.machine.cpu.shown = lastShown result.trace) ∧
    run rom supplier? sink? { options with trace := false } program? =
      (run rom supplier? sink? options program?).map RunResult.untraced := by
  constructor
  · intro result ran
    have finished :=
      Progress.runWith_finished rom (options.devices supplier? sink?) options program?
    have chronicled := Progress.iterate_chronicled rom (options.devices supplier? sink?) options
      tracing options.maxSteps .start Progress.start_inRange (Progress.start_chronicled rom)
    have same : runWith rom (options.devices supplier? sink?) options program? = .ok result := ran
    rw [same] at finished
    obtain ⟨machine, steps, trace⟩ := finished.ends
    rw [machine, steps, trace]
    exact ⟨(List.length_reverse).trans chronicled.count, chronicled.recording, chronicled.shown⟩
  · exact runWith_untraced rom (options.devices supplier? sink?) options program?

def echoThenRead : Rom :=
  ⟨[.byte 0x60, .byte 0x90, .byte 0x20] ++ List.replicate 13 (.byte 0xF0), rfl⟩

/-- The reading that fails leaves no row, and the row before it shows the value that was written. -/
theorem trace_records_run_refused :
    ∃ result input output,
      run echoThenRead (some rogueSupplier) none .standard none = .ok result ∧
      result.stop = .error ∧ result.steps = 2 ∧ result.trace = [input, output] ∧
      output.Records echoThenRead 1 input.shown ∧ output.output? = some 9 ∧
      result.machine.cpu.shown = output.shown ∧
      run echoThenRead (some rogueSupplier) none { RunOptions.standard with trace := false } none =
        .ok result.untraced := by
  have evaluated : ∃ result input output,
      run echoThenRead (some rogueSupplier) none .standard none = .ok result ∧
      result.stop = .error ∧ result.steps = 2 ∧ result.trace = [input, output] ∧
      output.output? = some 9 :=
    ⟨_, _, _, rfl, rfl, rfl, rfl, rfl⟩
  obtain ⟨result, input, output, ran, stop, steps, trace, written⟩ := evaluated
  obtain ⟨recorded, again⟩ :=
    trace_records_run echoThenRead (some rogueSupplier) none .standard none rfl
  obtain ⟨_, recording, last⟩ := recorded result ran
  rw [trace] at recording last
  rw [ran] at again
  exact ⟨result, input, output, ran, stop, steps, trace, recording [input] output [] rfl, written,
    last, again⟩

end FourBit
