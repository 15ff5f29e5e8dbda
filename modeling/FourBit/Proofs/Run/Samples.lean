import FourBit.Proofs.Run.Attempts
import FourBit.Proofs.Run.Failure
import FourBit.Proofs.Machine.Replay

/-! Samples of a run: each input instruction is offered the next one, the last one is held, and
nothing else of the samples makes a difference. -/

namespace FourBit

/-- The sample at a place. The last one holds, and zero stands for samples that there are not. -/
def held (samples : List Datum) (place : Nat) : Datum :=
  samples[min place (samples.length - 1)]?.getD (.int 0)

def inputsIn (made : List Attempt) : Nat := made.countP (·.instruction.isInput)

/-- An input instruction is offered a sample: it asks once, takes a nibble into the input latch and
its register, and fails for what is no nibble. -/
structure Attempt.Offered (devices : Devices) (attempt : Attempt) (sample : Datum) : Prop where
  given : devices.supplier attempt.before.ports.asked = .ok sample
  asked : (attempt.left devices).ports.asked = attempt.before.ports.asked + 1
  completed : attempt.completed = sample.nibble?.isSome
  taken : ∀ n ∈ sample.nibble?, (attempt.left devices).cpu.inPort = (n : Int) ∧
    ∀ register ∈ attempt.instruction.receives?, (attempt.left devices).cpu.get register = (n : Int)
  refused : sample.nibble? = none →
    (attempt.outcome devices).2 = some (Ports.sampleFailure sample)

theorem Supplier.replay_held (samples : List Datum) (place : Nat) :
    replay (samples.map .ok) place = .ok (held samples place) := by
  unfold replay held
  rw [List.length_map, List.getElem?_map]
  cases samples[min place (samples.length - 1)]? <;> rfl

theorem held_append_last (samples : List Datum) (last : Datum) (count place : Nat)
    (final : samples.getLast? = some last) :
    held (samples ++ List.replicate count last) place = held samples place := by
  rw [List.getLast?_eq_getElem?] at final
  have inside := (List.getElem?_eq_some_iff.mp final).1
  unfold held
  rw [List.length_append, List.length_replicate]
  rcases Nat.lt_or_ge place samples.length with early | late
  · have here : min place (samples.length + count - 1) = min place (samples.length - 1) := by omega
    rw [here, List.getElem?_append_left (by omega)]
  · have here : min place (samples.length - 1) = samples.length - 1 := by omega
    rw [here, final]
    rcases Nat.eq_zero_or_pos count with rfl | some
    · rw [List.replicate_zero, List.append_nil, Nat.add_zero, here, final]
    · rw [List.getElem?_append_right (by omega), List.getElem?_replicate, if_pos (by omega)]

theorem Ports.read_asked (supplier : Supplier) (ports : Ports) :
    (ports.read supplier).1.asked = ports.asked + 1 := by
  unfold read
  split
  · rfl
  · split <;> rfl

theorem Ports.write_asked (sink? : Option Sink) (value : Int) (ports : Ports) :
    (ports.write sink? value).1.asked = ports.asked := by
  cases sink? <;> rfl

namespace Machine

theorem execute_asked (devices : Devices) (i : Instruction) (m : Machine) :
    (execute devices i m).1.ports.asked = m.ports.asked + if i.isInput then 1 else 0 := by
  obtain ⟨opcode, operand⟩ := i
  cases opcode with
  | inA | inB =>
      exact (congrArg Ports.asked (receive_ports devices _ m)).trans (Ports.read_asked _ _)
  | outB | outIm =>
      exact (congrArg Ports.asked (emit_ports devices _ m)).trans (Ports.write_asked _ _ _)
  | addA | movAB | movA | movBA | addB | movB | jmp | jnc => rfl

theorem execute_agreeing (supplier other : Supplier) (sink? : Option Sink) (i : Instruction)
    (m : Machine) (agree : i.isInput = true → supplier m.ports.asked = other m.ports.asked) :
    execute ⟨other, sink?⟩ i m = execute ⟨supplier, sink?⟩ i m := by
  obtain ⟨opcode, operand⟩ := i
  cases opcode with
  | inA | inB =>
      have same := agree rfl
      simp only [execute, receive, Ports.read, same]
  | addA | movAB | movA | movBA | addB | movB | outB | outIm | jmp | jnc => rfl

end Machine

theorem Attempt.offered (devices : Devices) (attempt : Attempt) (sample : Datum)
    (input : attempt.instruction.isInput = true)
    (given : devices.supplier attempt.before.ports.asked = .ok sample)
    (completed : attempt.completed = (attempt.outcome devices).2.isNone) :
    attempt.Offered devices sample := by
  obtain ⟨register, reads⟩ := Option.isSome_iff_exists.mp input
  have received := Machine.execute_input devices attempt.instruction
    ⟨attempt.before.cpu, attempt.before.ports.clear⟩ register reads
  cases nibble : sample.nibble? with
  | none =>
      have refused :=
        received.trans (Machine.receive_of_large devices register _ sample given nibble)
      have outcome : attempt.outcome devices = _ := refused
      refine ⟨given, ?_, ?_, ?_, ?_⟩
      · rw [Attempt.left, outcome]
        rfl
      · rw [completed, outcome, nibble]
        rfl
      · simp only [nibble, Option.mem_def, reduceCtorEq, false_imp_iff, implies_true]
      · intro _
        rw [outcome]
  | some n =>
      have accepted :=
        received.trans (Machine.receive_of_sample devices register _ sample n given nibble)
      have outcome : attempt.outcome devices = _ := accepted
      refine ⟨given, ?_, ?_, ?_, ?_⟩
      · rw [Attempt.left, outcome]
        rfl
      · rw [completed, outcome, nibble]
        rfl
      · intro n' same
        cases nibble.symm.trans same
        rw [Attempt.left, outcome, reads]
        refine ⟨?_, ?_⟩
        · cases register <;> rfl
        · rintro _ ⟨⟩
          cases register <;> exact nibble_operand n
      · intro large
        cases nibble.symm.trans large

theorem inputsIn_concat (past : List Attempt) (attempt : Attempt) :
    inputsIn (past ++ [attempt]) =
      inputsIn past + if attempt.instruction.isInput then 1 else 0 := by
  unfold inputsIn
  rw [List.countP_append, List.countP_singleton]

theorem inputsIn_cons (attempt : Attempt) (made : List Attempt) :
    inputsIn (attempt :: made) =
      inputsIn made + if attempt.instruction.isInput then 1 else 0 :=
  List.countP_cons

theorem exists_input (made : List Attempt) (place : Nat) (within : place < inputsIn made) :
    ∃ before attempt after, made = before ++ attempt :: after ∧
      attempt.instruction.isInput = true ∧ inputsIn before = place := by
  induction made generalizing place with
  | nil => cases within
  | cons first rest ih =>
      cases input : first.instruction.isInput with
      | false =>
          rw [inputsIn_cons, input] at within
          obtain ⟨before, attempt, after, rfl, reads, count⟩ := ih place within
          refine ⟨first :: before, attempt, after, rfl, reads, ?_⟩
          rw [inputsIn_cons, input, count]
          rfl
      | true =>
          cases place with
          | zero => exact ⟨[], first, rest, rfl, input, rfl⟩
          | succ place =>
              rw [inputsIn_cons, input, if_pos rfl] at within
              obtain ⟨before, attempt, after, rfl, reads, count⟩ :=
                ih place (Nat.lt_of_succ_lt_succ within)
              refine ⟨first :: before, attempt, after, rfl, reads, ?_⟩
              rw [inputsIn_cons, input, count, if_pos rfl]

namespace Progress

variable {rom : Rom} {options : RunOptions}

theorem Course.asked {devices : Devices} {budget : Nat} {p : Progress} {made : List Attempt}
    {ending : Progress × Option Failure}
    (course : Course rom devices options budget p made ending)
    (unasked : p.machine.ports.asked = 0) :
    ending.1.machine.ports.asked = inputsIn made ∧
      ∀ before attempt after, made = before ++ attempt :: after →
        attempt.before.ports.asked = inputsIn before := by
  apply course.keeps (fun past m => m.ports.asked = inputsIn past) _ _ [] unasked
  · intro past p q cell i after count stepped
    have asked := Machine.execute_asked devices i ⟨p.machine.cpu, p.machine.ports.clear⟩
    rw [stepped.executed] at asked
    rw [stepped.ports, asked, inputsIn_concat, ← count]
    rfl
  · intro past m left i failure count executed
    have asked := Machine.execute_asked devices i ⟨m.cpu, m.ports.clear⟩
    have same : Machine.execute devices i ⟨m.cpu, m.ports.clear⟩ = (left, some failure) := executed
    rw [same] at asked
    rw [asked, inputsIn_concat, ← count]
    rfl

theorem step_agreeing (rom : Rom) (supplier other : Supplier) (sink? : Option Sink)
    (options : RunOptions) (p : Progress) (cell : Cell) (i : Instruction)
    (fetched : fetch rom p.machine.cpu.pc = .ok (cell, i))
    (agree : i.isInput = true →
      supplier p.machine.ports.asked = other p.machine.ports.asked) :
    p.step rom ⟨other, sink?⟩ options = p.step rom ⟨supplier, sink?⟩ options := by
  have same := Machine.execute_agreeing supplier other sink? i
    ⟨p.machine.cpu, p.machine.ports.clear⟩ agree
  simp only [step, fetched, same]

/-- A loop goes the same way with another supplier that gives the same to each input instruction. -/
theorem Course.agreeing {supplier : Supplier} {sink? : Option Sink} {budget : Nat} {p : Progress}
    {made : List Attempt} {ending : Progress × Option Failure}
    (course : Course rom ⟨supplier, sink?⟩ options budget p made ending) (other : Supplier)
    (agree : ∀ place < inputsIn made,
      supplier (p.machine.ports.asked + place) = other (p.machine.ports.asked + place)) :
    p.iterate rom ⟨other, sink?⟩ options budget = ending := by
  -- The supplier is asked by number, so that the agreement moves on with the questions.
  have now (attempt : Attempt) (later : List Attempt) (p : Progress)
      (agree : ∀ place < inputsIn (attempt :: later),
        supplier (p.machine.ports.asked + place) = other (p.machine.ports.asked + place))
      (input : attempt.instruction.isInput = true) :
      supplier p.machine.ports.asked = other p.machine.ports.asked := by
    apply agree 0
    rw [inputsIn_cons, input, if_pos rfl]
    exact Nat.succ_pos _
  induction course with
  | spent => rfl
  | halted budget p halted => exact iterate_halted rom _ options _ p halted
  | missed budget p fault running missing =>
      simp only [iterate, running, step, missing, Bool.false_eq_true, if_false]
  | failed budget p cell i left failure running fetched executed =>
      have turned : p.machine.turn rom ⟨supplier, sink?⟩ = (left, some failure) := by
        simp only [Machine.turn, fetched]
        exact executed
      have same :=
        step_agreeing rom supplier other sink? options p cell i fetched (now _ _ p agree)
      rw [step_failed rom _ options p left failure turned] at same
      simp only [iterate, running, Bool.false_eq_true, if_false, same]
  | onward budget p q cell i after rest ending running taken stepped more ih =>
      have same :=
        step_agreeing rom supplier other sink? options p cell i stepped.fetched (now _ _ p agree)
      rw [taken] at same
      have asked := Machine.execute_asked ⟨supplier, sink?⟩ i ⟨p.machine.cpu, p.machine.ports.clear⟩
      rw [stepped.executed, ← stepped.ports] at asked
      have later : ∀ place < inputsIn rest,
          supplier (q.machine.ports.asked + place) = other (q.machine.ports.asked + place) := by
        intro place within
        have shifted : q.machine.ports.asked + place =
            p.machine.ports.asked + ((if i.isInput then 1 else 0) + place) := by
          rw [asked, Nat.add_assoc]
          rfl
        rw [shifted]
        apply agree
        rw [inputsIn_cons]
        simp only
        omega
      simp only [iterate, running, Bool.false_eq_true, if_false, same]
      exact ih later

end Progress

section Devices

variable (rom : Rom) (supplier : Supplier) (sink? : Option Sink) (options : RunOptions)
  (program? : Option Program)

theorem runWith_inputs (devices : Devices) (others : List Datum) :
    runWith rom devices { options with inputs := others } program? =
      runWith rom devices options program? := by
  have same := Progress.iterate_congr rom devices { options with inputs := others } options rfl rfl
    options.maxSteps .start
  unfold runWith
  rw [same]

theorem runWith_agreeing (other : Supplier)
    (agree : ∀ place < inputsIn (attemptsOf rom ⟨supplier, sink?⟩ options),
      supplier place = other place) :
    runWith rom ⟨other, sink?⟩ options program? =
      runWith rom ⟨supplier, sink?⟩ options program? := by
  have same := (attemptsOf_course rom ⟨supplier, sink?⟩ options).agreeing other (by
    simpa only [Progress.start, Machine.start, Ports.start, Nat.zero_add] using agree)
  unfold runWith
  rw [same]

end Devices

theorem run_held (rom : Rom) (sink? : Option Sink) (options : RunOptions)
    (program? : Option Program) (others : List Datum)
    (alike : ∀ place < inputsIn (attemptsOf rom (options.devices none sink?) options),
      held others place = held options.inputs place) :
    run rom none sink? { options with inputs := others } program? =
      run rom none sink? options program? := by
  have agree : ∀ place < inputsIn (attemptsOf rom (options.devices none sink?) options),
      Supplier.replay (options.inputs.map .ok) place = Supplier.replay (others.map .ok) place := by
    intro place within
    rw [Supplier.replay_held, Supplier.replay_held, alike place within]
  calc
    _ = runWith rom ⟨.replay (others.map .ok), sink?⟩ { options with inputs := others } program? :=
      rfl
    _ = runWith rom ⟨.replay (others.map .ok), sink?⟩ options program? :=
      runWith_inputs rom options program? _ others
    _ = runWith rom ⟨.replay (options.inputs.map .ok), sink?⟩ options program? :=
      runWith_agreeing rom _ sink? options program? _ agree

theorem offered_held (rom : Rom) (sink? : Option Sink) (options : RunOptions)
    (before : List Attempt) (attempt : Attempt) (after : List Attempt)
    (split : attemptsOf rom (options.devices none sink?) options = before ++ attempt :: after)
    (input : attempt.instruction.isInput = true) :
    attempt.Offered (options.devices none sink?) (held options.inputs (inputsIn before)) := by
  have course := attemptsOf_course rom (options.devices none sink?) options
  have asked := (course.asked rfl).2 before attempt after split
  have listed : attempt ∈ attemptsOf rom (options.devices none sink?) options := by simp [split]
  apply attempt.offered _ _ input
  · rw [asked]
    exact Supplier.replay_held options.inputs _
  · exact (course.outcomes attempt listed).2

theorem loop_fails_at_large (rom : Rom) (sink? : Option Sink) (options : RunOptions) (place : Nat)
    (within : place < inputsIn (attemptsOf rom (options.devices none sink?) options))
    (large : (held options.inputs place).nibble? = none) :
    place + 1 = inputsIn (attemptsOf rom (options.devices none sink?) options) ∧
      ∃ p, Progress.start.iterate rom (options.devices none sink?) options options.maxSteps =
        (p, some (Ports.sampleFailure (held options.inputs place))) := by
  obtain ⟨before, attempt, after, split, input, rfl⟩ := exists_input _ place within
  have offered := offered_held rom sink? options before attempt after split input
  have incomplete : attempt.completed = false := by
    rw [offered.completed, large]
    rfl
  obtain ⟨rfl, p, failure, ended, outcome, _⟩ :=
    (attemptsOf_course rom (options.devices none sink?) options).uncompleted split incomplete
  have raised := offered.refused large
  rw [outcome] at raised
  cases raised
  refine ⟨?_, p, ended⟩
  rw [split, inputsIn_concat, if_pos input]

theorem fails_at_large (rom : Rom) (sink? : Option Sink) (options : RunOptions)
    (program? : Option Program) (place : Nat)
    (within : place < inputsIn (attemptsOf rom (options.devices none sink?) options))
    (large : (held options.inputs place).nibble? = none) :
    ((held options.inputs place).isShown = true →
      ∃ result shown, run rom none sink? options program? = .ok result ∧
        result.error? = some shown ∧ shown.kind = .inputOutOfRange ∧
        shown.message = (Ports.sampleFault (held options.inputs place)).message) ∧
    ((held options.inputs place).isShown = false →
      run rom none sink? options program? = .error .longNumber) := by
  obtain ⟨_, p, ended⟩ := loop_fails_at_large rom sink? options place within large
  have finished := Progress.runWith_finished rom (options.devices none sink?) options program?
  rw [ended] at finished
  generalize ran : runWith rom (options.devices none sink?) options program? = answer at finished
  constructor
  · intro visible
    rw [Ports.sampleFailure, Failure.showing_shown _ visible] at finished
    have placed := p.locate_placed program? (Ports.sampleFault (held options.inputs place))
    cases finished with
    | failed => exact ⟨_, _, ran, rfl, placed.kind, placed.message⟩
  · intro hidden
    rw [Ports.sampleFailure, Failure.showing_hidden _ hidden] at finished
    cases finished with
    | broken => exact ran

theorem loop_failure (rom : Rom) (sink? : Option Sink) (options : RunOptions) (p : Progress)
    (failure : Failure)
    (ended : Progress.start.iterate rom (options.devices none sink?) options options.maxSteps =
      (p, some failure)) :
    (∃ fault, failure = .fault fault ∧ (fault.kind = .romAccess ∨ fault.kind = .decode)) ∨
    (∃ place < inputsIn (attemptsOf rom (options.devices none sink?) options),
      (held options.inputs place).nibble? = none ∧
      failure = Ports.sampleFailure (held options.inputs place)) ∨
    ∃ sink values, sink? = some sink ∧ sink values = some failure := by
  have course := attemptsOf_course rom (options.devices none sink?) options
  rcases course.failure ended with
    ⟨fault, same, missing⟩ | ⟨before, attempt, split, incomplete, outcome⟩
  · exact .inl ⟨fault, same, fetch_fault rom _ fault missing⟩
  · cases input : attempt.instruction.isInput with
    | true =>
        have offered := offered_held rom sink? options before attempt [] split input
        have large := offered.completed
        rw [incomplete] at large
        have none := Option.isSome_eq_false_iff.mp large.symm
        have refused := offered.refused (Option.isNone_iff_eq_none.mp none)
        rw [outcome] at refused
        refine .inr (.inl ⟨inputsIn before, ?_, Option.isNone_iff_eq_none.mp none,
          Option.some.inj refused⟩)
        rw [split, inputsIn_concat, if_pos input]
        exact Nat.lt_succ_self _
    | false =>
        rcases Machine.execute_failure _ _ _ _ _ outcome with
          ⟨reads, _⟩ | ⟨_, value, ports, refused⟩
        · rcases reads with opcode | opcode <;>
            simp [Instruction.isInput, Instruction.receives?, opcode] at input
        · obtain ⟨sink, values, present, raised⟩ := Ports.write_failure _ _ _ value _ refused
          exact .inr (.inr ⟨sink, values, present, raised⟩)

/-- Unless the output device raises such an error, a sample that is no nibble was reached where a
run ends in an error about one. -/
theorem large_of_fails (rom : Rom) (sink? : Option Sink) (options : RunOptions)
    (program? : Option Program) (result : RunResult) (shown : Fault)
    (ran : run rom none sink? options program? = .ok result) (error : result.error? = some shown)
    (kind : shown.kind = .inputOutOfRange) :
    (∃ place < inputsIn (attemptsOf rom (options.devices none sink?) options),
      (held options.inputs place).nibble? = none) ∨
    ∃ sink values fault, sink? = some sink ∧ sink values = some (.fault fault) ∧
      fault.kind = .inputOutOfRange := by
  have finished := Progress.finished_of_run rom options none sink? program? result ran
  generalize ended : Progress.start.iterate rom (options.devices none sink?) options
    options.maxSteps = ending at finished
  cases finished with
  | halted | spent => cases error
  | exceeded p running policy =>
      cases error
      rw [p.locate_kind] at kind
      cases kind
  | failed p fault =>
      cases error
      rw [p.locate_kind] at kind
      rcases loop_failure rom sink? options p _ ended with
        ⟨_, same, access | decode⟩ | ⟨place, within, large, _⟩ | ⟨sink, values, present, raised⟩
      · cases same
        cases kind.symm.trans access
      · cases same
        cases kind.symm.trans decode
      · exact .inl ⟨place, within, large⟩
      · exact .inr ⟨sink, values, fault, present, raised, kind⟩

theorem hidden_of_broken (rom : Rom) (sink? : Option Sink) (options : RunOptions)
    (program? : Option Program) (breach : Breach)
    (broken : run rom none sink? options program? = .error breach) :
    (∃ place < inputsIn (attemptsOf rom (options.devices none sink?) options),
      (held options.inputs place).isShown = false) ∨
    ∃ sink values, sink? = some sink ∧ sink values = some (.breach breach) := by
  have finished := Progress.runWith_finished rom (options.devices none sink?) options program?
  have answer : runWith rom (options.devices none sink?) options program? = .error breach := broken
  rw [answer] at finished
  generalize ended : Progress.start.iterate rom (options.devices none sink?) options
    options.maxSteps = ending at finished
  cases finished with
  | broken p =>
      rcases loop_failure rom sink? options p _ ended with
        ⟨_, impossible, _⟩ | ⟨place, within, _, same⟩ | raised
      · cases impossible
      · refine .inl ⟨place, within, ?_⟩
        cases shown : (held options.inputs place).isShown with
        | false => rfl
        | true => cases same.trans (Failure.showing_shown _ shown)
      · exact .inr raised

/-- The samples of a run are replayed to its input instructions, one after another, and the last one
is held. Nothing else asks for a sample, and none is skipped or given twice. So a run on other
samples that are held alike up to the last input instruction is the same, for instance one with more
copies of the last sample. A sample that is no nibble ends the run just when it is reached, in an
error that shows it; if it cannot be shown the run breaks off. -/
theorem samples_are_replayed (rom : Rom) (sink? : Option Sink) (options : RunOptions)
    (program? : Option Program) :
    (∀ before attempt after,
      attemptsOf rom (options.devices none sink?) options = before ++ attempt :: after →
      attempt.before.ports.asked = inputsIn before ∧
      (attempt.instruction.isInput = true →
        attempt.Offered (options.devices none sink?) (held options.inputs (inputsIn before))) ∧
      (attempt.instruction.isInput = false →
        (attempt.left (options.devices none sink?)).ports.asked = attempt.before.ports.asked)) ∧
    (∀ result, run rom none sink? options program? = .ok result →
      result.machine.ports.asked =
        inputsIn (attemptsOf rom (options.devices none sink?) options)) ∧
    (∀ others,
      (∀ place < inputsIn (attemptsOf rom (options.devices none sink?) options),
        held others place = held options.inputs place) →
      run rom none sink? { options with inputs := others } program? =
        run rom none sink? options program?) ∧
    (∀ last count, options.inputs.getLast? = some last →
      run rom none sink?
          { options with inputs := options.inputs ++ List.replicate count last } program? =
        run rom none sink? options program?) ∧
    (∀ place < inputsIn (attemptsOf rom (options.devices none sink?) options),
      (held options.inputs place).nibble? = none →
      place + 1 = inputsIn (attemptsOf rom (options.devices none sink?) options) ∧
      ((held options.inputs place).isShown = true →
        ∃ result shown, run rom none sink? options program? = .ok result ∧
          result.error? = some shown ∧ shown.kind = .inputOutOfRange ∧
          shown.message = (Ports.sampleFault (held options.inputs place)).message) ∧
      ((held options.inputs place).isShown = false →
        run rom none sink? options program? = .error .longNumber)) ∧
    (∀ result shown, run rom none sink? options program? = .ok result →
      result.error? = some shown → shown.kind = .inputOutOfRange →
      (∃ place < inputsIn (attemptsOf rom (options.devices none sink?) options),
        (held options.inputs place).nibble? = none) ∨
      ∃ sink values fault, sink? = some sink ∧ sink values = some (.fault fault) ∧
        fault.kind = .inputOutOfRange) ∧
    ∀ breach, run rom none sink? options program? = .error breach →
      (∃ place < inputsIn (attemptsOf rom (options.devices none sink?) options),
        (held options.inputs place).isShown = false) ∨
      ∃ sink values, sink? = some sink ∧ sink values = some (.breach breach) := by
  have course := attemptsOf_course rom (options.devices none sink?) options
  have asked := course.asked rfl
  refine ⟨?_, ?_, run_held rom sink? options program?, ?_, ?_,
    large_of_fails rom sink? options program?, hidden_of_broken rom sink? options program?⟩
  · intro before attempt after split
    refine ⟨asked.2 before attempt after split,
      offered_held rom sink? options before attempt after split, ?_⟩
    intro other
    have kept := Machine.execute_asked (options.devices none sink?) attempt.instruction
      ⟨attempt.before.cpu, attempt.before.ports.clear⟩
    rw [other] at kept
    exact kept
  · intro result ran
    have finished := Progress.finished_of_run rom options none sink? program? result ran
    rw [finished.ends.1]
    exact asked.1
  · intro last count final
    apply run_held
    intro place _
    exact held_append_last options.inputs last count place final
  · intro place within large
    exact ⟨(loop_fails_at_large rom sink? options place within large).1,
      fails_at_large rom sink? options program? place within large⟩

def threeReads : Rom :=
  ⟨[.byte 0x20, .byte 0x60, .byte 0x20, .byte 0xF3] ++ List.replicate 12 (.byte 0xF0), rfl⟩

def nineSteps (inputs : List Datum) : RunOptions := ⟨9, by decide, .selfLoop, true, inputs⟩

/-- The second of two samples is held for the third question, and what stands behind it in a longer
list is never asked for. A truth value is refused as soon as it is. -/
theorem samples_are_replayed_threeReads :
    ∃ result refused shown,
      run threeReads none none (nineSteps [.int 3, .int 7]) none = .ok result ∧
      result.machine.cpu.a = 7 ∧ result.machine.ports.asked = 3 ∧
      run threeReads none none (nineSteps [.int 3, .int 7, .int 7, .truth true]) none =
        .ok result ∧
      run threeReads none none (nineSteps [.int 3, .truth true]) none = .ok refused ∧
      refused.error? = some shown ∧ shown.kind = .inputOutOfRange ∧
      refused.machine.ports.asked = 2 := by
  have alike : ∀ place < inputsIn (attemptsOf threeReads
      ((nineSteps [.int 3, .int 7]).devices none none) (nineSteps [.int 3, .int 7])),
      held [.int 3, .int 7, .int 7, .truth true] place = held [.int 3, .int 7] place := by
    intro place within
    have bound : place < 3 := within
    match place, bound with
    | 0, _ => rfl
    | 1, _ => rfl
    | 2, _ => rfl
  obtain ⟨_, asked, same, _⟩ :=
    samples_are_replayed threeReads none (nineSteps [.int 3, .int 7]) none
  obtain ⟨_, asked', _, _, fails, _⟩ :=
    samples_are_replayed threeReads none (nineSteps [.int 3, .truth true]) none
  have evaluated : ∃ result, run threeReads none none (nineSteps [.int 3, .int 7]) none =
      .ok result ∧ result.machine.cpu.a = 7 := ⟨_, rfl, rfl⟩
  obtain ⟨result, ran, a⟩ := evaluated
  obtain ⟨refused, shown, ran', error, kind, _⟩ := (fails 1 (by decide) rfl).2.1 rfl
  exact ⟨result, refused, shown, ran, a, asked result ran, (same _ alike).trans ran, ran', error,
    kind, asked' refused ran'⟩

end FourBit
