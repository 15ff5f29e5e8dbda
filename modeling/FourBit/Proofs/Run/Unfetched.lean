import FourBit.Proofs.Assembly.Written
import FourBit.Proofs.Run.Loop

/-! What a run does not look at: words at addresses that it never fetches from, and the low halves
of the forms that name registers only. -/

namespace FourBit

def registerOnlyCodes : List Nat := [1, 2, 4, 6, 9]

/-- Words that do not differ, or only in a low half that plays no part. -/
def SameForm (first second : Fin 256) : Prop :=
  first = second ∨
    ((first : Nat) / 16 = (second : Nat) / 16 ∧ (first : Nat) / 16 ∈ registerOnlyCodes)

def Rom.AgreesAt (first second : Rom) (addr : Int) : Prop :=
  ∃ word other, first.read addr = .ok word ∧ second.read addr = .ok other ∧
    SameForm word.value other.value

def Progress.fetches (rom : Rom) (devices : Devices) (options : RunOptions) :
    Nat → Progress → List Int
  | 0, _ => []
  | budget + 1, p =>
    if p.machine.cpu.halted then []
    else p.machine.cpu.pc :: match p.step rom devices options with
      | (q, none) => fetches rom devices options budget q
      | (_, some _) => []

structure TraceRow.View where
  step : Nat
  addr : Int
  text : Text
  a : Int
  b : Int
  carry : Int
  pc : Int
  input? : Option Int
  output? : Option Int
  deriving DecidableEq, Repr

def TraceRow.view (row : TraceRow) : TraceRow.View :=
  ⟨row.step, row.addr, row.instruction.text, row.a, row.b, row.carry, row.pc, row.input?,
    row.output?⟩

structure RunResult.View where
  machine : Machine
  steps : Nat
  stop : StopReason
  trace : List TraceRow.View
  error? : Option Fault
  deriving DecidableEq, Repr

def RunResult.view (result : RunResult) : RunResult.View :=
  ⟨result.machine, result.steps, result.stop, result.trace.map TraceRow.view, result.error?⟩

namespace Instruction

theorem text_canonical (i : Instruction) : i.canonical.text = i.text := by
  obtain ⟨opcode, operand⟩ := i
  cases opcode <;> rfl

theorem isSelfLoop_canonical (i : Instruction) (addr carry : Int) :
    i.canonical.isSelfLoop addr carry = i.isSelfLoop addr carry := by
  obtain ⟨opcode, operand⟩ := i
  cases opcode <;> rfl

theorem execute_canonical (devices : Devices) (i : Instruction) (m : Machine) :
    Machine.execute devices i.canonical m = Machine.execute devices i m := by
  obtain ⟨opcode, operand⟩ := i
  cases opcode <;> rfl

end Instruction

theorem SameForm.decodes {first second : Fin 256} (same : SameForm first second) :
    first = second ∨ ∃ i j, Instruction.ofByte? first = some i ∧
      Instruction.ofByte? second = some j ∧ i.canonical = j.canonical := by
  rcases same with rfl | ⟨high, listed⟩
  · exact .inl rfl
  · apply Or.inr
    simp only [registerOnlyCodes, List.mem_cons, List.not_mem_nil, or_false] at listed
    rcases listed with code | code | code | code | code
    all_goals
      have other := high.symm.trans code
      simp only [Instruction.ofByte?, code, other]
      exact ⟨_, _, rfl, rfl, rfl⟩

theorem Rom.AgreesAt.fetch {first second : Rom} {addr : Int} (agree : first.AgreesAt second addr) :
    (∃ fault, fetch first addr = .error fault ∧ fetch second addr = .error fault) ∨
      ∃ word other i j, fetch first addr = .ok (word, i) ∧ fetch second addr = .ok (other, j) ∧
        i.canonical = j.canonical := by
  obtain ⟨word, other, here, there, same⟩ := agree
  simp only [FourBit.fetch, here, there, Instruction.decode_byte]
  rcases same.decodes with equal | ⟨i, j, decoded, decoded', alike⟩
  · rw [equal]
    cases Instruction.ofByte? other.value with
    | none => exact .inl ⟨_, rfl, rfl⟩
    | some i => exact .inr ⟨word, other, i, i, rfl, rfl, rfl⟩
  · rw [decoded, decoded']
    exact .inr ⟨word, other, i, j, rfl, rfl, alike⟩

namespace Progress

variable (first second : Rom) (devices : Devices) (options : RunOptions)

/-- Two runs stand alike: all but the words in their rows is the same. -/
structure Twin (p q : Progress) : Prop where
  machine : p.machine = q.machine
  steps : p.steps = q.steps
  addr : p.addr = q.addr
  rows : p.rows.map TraceRow.view = q.rows.map TraceRow.view

theorem Twin.refl (p : Progress) : p.Twin p := ⟨rfl, rfl, rfl, rfl⟩

theorem Twin.step {p q : Progress} (twin : p.Twin q)
    (agree : first.AgreesAt second p.machine.cpu.pc) :
    (p.step first devices options).1.Twin (q.step second devices options).1 ∧
      (p.step first devices options).2 = (q.step second devices options).2 := by
  obtain ⟨machine, steps, addr, rows⟩ := twin
  unfold Progress.step
  rw [← machine, ← steps]
  rcases agree.fetch with ⟨fault, here, there⟩ | ⟨word, other, i, j, here, there, alike⟩
  · simp only [here, there]
    exact ⟨⟨rfl, rfl, rfl, rows⟩, trivial⟩
  · have spins := i.isSelfLoop_canonical p.machine.cpu.pc p.machine.cpu.carry
    rw [alike, j.isSelfLoop_canonical] at spins
    have does := i.execute_canonical devices ⟨p.machine.cpu, p.machine.ports.clear⟩
    rw [alike, j.execute_canonical] at does
    have text := i.text_canonical
    rw [alike, j.text_canonical] at text
    simp only [here, there, spins, does]
    split
    · exact ⟨⟨rfl, rfl, rfl, rows⟩, rfl⟩
    · refine ⟨⟨rfl, rfl, rfl, ?_⟩, rfl⟩
      split
      · simp only [List.map_cons, rows, TraceRow.view, TraceRow.ofStep, text]
      · exact rows

/-- If the memories agree wherever the first run fetches from, the loops end alike. -/
theorem Twin.iterate (budget : Nat) {p q : Progress} (twin : p.Twin q)
    (agree : ∀ addr ∈ fetches first devices options budget p, first.AgreesAt second addr) :
    (p.iterate first devices options budget).1.Twin
        (q.iterate second devices options budget).1 ∧
      (p.iterate first devices options budget).2 =
        (q.iterate second devices options budget).2 := by
  -- The addresses are those of the first loop alone: as long as both stand alike, the second one
  -- fetches from the same.
  induction budget generalizing p q with
  | zero => exact ⟨twin, rfl⟩
  | succ budget ih =>
      unfold fetches at agree
      unfold Progress.iterate
      rw [← twin.machine]
      split
      · exact ⟨twin, rfl⟩
      · rename_i running
        rw [if_neg running, List.forall_mem_cons] at agree
        obtain ⟨here, later⟩ := agree
        obtain ⟨still, same⟩ := twin.step first second devices options here
        generalize p.step first devices options = taken at later still same
        generalize q.step second devices options = taken' at still same
        obtain ⟨p', failure?⟩ := taken
        obtain ⟨q', other?⟩ := taken'
        cases same
        cases failure? with
        | none => exact ih still later
        | some failure => exact ⟨still, rfl⟩

theorem Twin.view {p q : Progress} (twin : p.Twin q) (stop : StopReason)
    (error? : Option Fault) : (p.result stop error?).view = (q.result stop error?).view := by
  obtain ⟨machine, steps, _, rows⟩ := twin
  simp only [result, RunResult.view, List.map_reverse, machine, steps, rows]

theorem Twin.locate {p q : Progress} (twin : p.Twin q) (program? : Option Program)
    (fault : Fault) : p.locate program? fault = q.locate program? fault := by
  simp only [Progress.locate, twin.steps, twin.addr]

end Progress

theorem runWith_unfetched (first second : Rom) (devices : Devices) (options : RunOptions)
    (program? : Option Program)
    (agree : ∀ addr ∈ Progress.fetches first devices options options.maxSteps .start,
      first.AgreesAt second addr) :
    (runWith first devices options program?).map RunResult.view =
      (runWith second devices options program?).map RunResult.view := by
  have loops := (Progress.Twin.refl .start).iterate first second devices options
    options.maxSteps agree
  unfold runWith
  generalize Progress.start.iterate first devices options options.maxSteps = ended at loops
  generalize Progress.start.iterate second devices options options.maxSteps = ended' at loops
  obtain ⟨p, failure?⟩ := ended
  obtain ⟨q, other?⟩ := ended'
  obtain ⟨twin, same⟩ : p.Twin q ∧ failure? = other? := loops
  subst same
  rcases failure? with _ | fault | breach
  · simp only [twin.machine, twin.locate]
    split
    · exact congrArg Except.ok (twin.view .halt none)
    · split
      · exact congrArg Except.ok (twin.view .stepBudget none)
      · exact congrArg Except.ok (twin.view .error _)
  · simp only [twin.locate]
    exact congrArg Except.ok (twin.view .error _)
  · rfl

/-- If another memory has, wherever a run fetches from, the same word or one of the same form that
names registers only, then the run of the other memory comes to the same: nothing but the words in
the trace differs. -/
theorem unfetched_words_are_ignored (first second : Rom) (supplier? : Option Supplier)
    (sink? : Option Sink) (options : RunOptions) (program? : Option Program)
    (agree : ∀ addr ∈ Progress.fetches first (options.devices supplier? sink?) options
      options.maxSteps .start, first.AgreesAt second addr) :
    (run first supplier? sink? options program?).map RunResult.view =
      (run second supplier? sink? options program?).map RunResult.view :=
  runWith_unfetched first second _ options program? agree

def readAndStop : Rom :=
  ⟨[.byte 0x60, .byte 0x90, .byte 0x80] ++ List.replicate 13 (.byte 0xF0), rfl⟩

def readAndStopElsewhere : Rom :=
  ⟨[.byte 0x6F, .byte 0x97, .byte 0x80] ++ List.replicate 13 (.byte 0x31), rfl⟩

theorem unfetched_words_are_ignored_readAndStop :
    ∃ result other,
      run readAndStop (some (.replay [.ok (.int 5)])) none .standard none = .ok result ∧
      run readAndStopElsewhere (some (.replay [.ok (.int 5)])) none .standard none = .ok other ∧
      result.view = other.view ∧ result.trace ≠ other.trace ∧ result.stop = .error ∧
      result.outputs = [5] := by
  have fetched : Progress.fetches readAndStop
      (RunOptions.standard.devices (some (.replay [.ok (.int 5)])) none) .standard 1000 .start =
        [0, 1, 2] := rfl
  have agree : ∀ addr ∈ Progress.fetches readAndStop
      (RunOptions.standard.devices (some (.replay [.ok (.int 5)])) none) .standard 1000 .start,
      readAndStop.AgreesAt readAndStopElsewhere addr := by
    rw [fetched]
    simp only [List.forall_mem_cons, List.not_mem_nil, false_imp_iff, implies_true, and_true]
    refine ⟨⟨.byte 0x60, .byte 0x6F, rfl, rfl, ?_⟩, ⟨.byte 0x90, .byte 0x97, rfl, rfl, ?_⟩,
      ⟨.byte 0x80, .byte 0x80, rfl, rfl, .inl rfl⟩⟩
    · exact .inr ⟨rfl, by decide⟩
    · exact .inr ⟨rfl, by decide⟩
  have evaluated : ∃ result other,
      run readAndStop (some (.replay [.ok (.int 5)])) none .standard none = .ok result ∧
      run readAndStopElsewhere (some (.replay [.ok (.int 5)])) none .standard none = .ok other ∧
      result.trace ≠ other.trace ∧ result.stop = .error ∧ result.outputs = [5] :=
    ⟨_, _, rfl, rfl, by decide, rfl, rfl⟩
  obtain ⟨result, other, ran, ran', differ, stop, outputs⟩ := evaluated
  have same := unfetched_words_are_ignored readAndStop readAndStopElsewhere
    (some (.replay [.ok (.int 5)])) none .standard none agree
  rw [ran, ran'] at same
  exact ⟨result, other, ran, ran', Except.ok.inj same, differ, stop, outputs⟩

end FourBit
