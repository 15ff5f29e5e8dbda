import FourBit.Proofs.Run.Failure
import FourBit.Proofs.Run.Onlookers
import FourBit.Proofs.Run.Trace

/-! The outputs of a run are told alike by the output latch, by what the sink was given and by the
rows of the trace. Only a value that the sink refuses has no row, and that is the last one. -/

namespace FourBit

def Sink.Takes (sink : Sink) : List Int → Prop
  | [] => True
  | value :: earlier => sink (value :: earlier) = none ∧ sink.Takes earlier

structure Machine.Tells (devices : Devices) (m after : Machine) : Prop where
  written : after.ports.written = after.ports.lastOut.toList ++ m.ports.written
  latch : after.cpu.outPort = after.ports.lastOut.getD m.cpu.outPort
  taken : ∀ sink ∈ devices.sink?, sink.Takes m.ports.heard → sink.Takes after.ports.heard

namespace Machine

variable (devices : Devices)

theorem receive_tells (register : Register) (m after : Machine) (quiet : m.ports.lastOut = none)
    (received : m.receive devices register = (after, none)) : m.Tells devices after := by
  obtain ⟨ports, value, accepted, rfl⟩ := receive_ok devices register m after received
  obtain ⟨sample, n, _, _, rfl, rfl⟩ := Ports.read_ok _ _ _ _ accepted
  constructor
  · simp only [quiet, Option.toList_none, List.nil_append]
  · simp only [quiet, Option.getD_none]
    cases register <;> rfl
  · exact fun sink present taken => taken

theorem emit_tells (value : Int) (m after : Machine) (small : 0 ≤ value ∧ value < 16)
    (emitted : m.emit devices value = (after, none)) : m.Tells devices after := by
  obtain ⟨ports, accepted, rfl⟩ := emit_ok devices value m after emitted
  have whole := nibble_of_range value small.1 small.2
  unfold Ports.write at accepted
  cases present : devices.sink? with
  | none =>
      simp only [present, whole] at accepted
      cases accepted
      exact ⟨rfl, rfl, by simp [present]⟩
  | some sink =>
      simp only [present, whole, Prod.mk.injEq] at accepted
      obtain ⟨rfl, answer⟩ := accepted
      refine ⟨rfl, rfl, ?_⟩
      intro sink' same earlier
      cases present.symm.trans same
      exact ⟨answer, earlier⟩

theorem execute_tells (i : Instruction) (m after : Machine) (inside : m.cpu.InRange)
    (executed : execute devices i ⟨m.cpu, m.ports.clear⟩ = (after, none)) :
    m.Tells devices after := by
  have cleared (told : Tells devices ⟨m.cpu, m.ports.clear⟩ after) : m.Tells devices after :=
    ⟨told.written, told.latch, told.taken⟩
  obtain ⟨opcode, operand⟩ := i
  apply cleared
  cases opcode with
  | inA | inB => exact receive_tells devices _ _ after rfl executed
  | outB => exact emit_tells devices m.cpu.b _ after inside.b executed
  | outIm => exact emit_tells devices operand _ after (fin_range operand) executed
  | jnc =>
      cases executed
      refine ⟨rfl, ?_, fun _ _ taken => taken⟩
      simp only
      split <;> rfl
  | addA | movAB | movA | movBA | addB | movB | jmp =>
      cases executed
      exact ⟨rfl, rfl, fun _ _ taken => taken⟩

theorem turn_tells_sink (rom : Rom) (m : Machine)
    (heard : ∀ sink ∈ devices.sink?, m.ports.heard = m.ports.written) :
    ∀ sink ∈ devices.sink?,
      (m.turn rom devices).1.ports.heard = (m.turn rom devices).1.ports.written := by
  obtain ⟨supplier, sink?⟩ := devices
  rintro sink ⟨⟩
  exact turn_heard supplier sink rom m (heard sink rfl)

end Machine

namespace Progress

variable (rom : Rom) (devices : Devices) (options : RunOptions)

structure Tells (p : Progress) : Prop where
  latch : p.machine.cpu.outPort = p.machine.ports.written.headD 0
  heard : ∀ sink ∈ devices.sink?, p.machine.ports.heard = p.machine.ports.written
  taken : ∀ sink ∈ devices.sink?, sink.Takes p.machine.ports.written
  rows : options.trace = true → p.rows.filterMap (·.output?) = p.machine.ports.written

theorem start_tells : start.Tells devices options :=
  ⟨rfl, fun _ _ => rfl, fun _ _ => trivial, fun _ => rfl⟩

theorem Stepped.tells {p q : Progress} {cell : Cell} {i : Instruction} {after : Machine}
    (stepped : p.Stepped rom devices options q cell i after) (inside : p.machine.cpu.InRange)
    (told : p.Tells devices options) : q.Tells devices options := by
  have one := Machine.execute_tells devices i p.machine after inside stepped.executed
  have turned : p.machine.turn rom devices = (after, none) := by
    simp only [Machine.turn, stepped.fetched, stepped.executed]
  have heard := Machine.turn_tells_sink devices rom p.machine told.heard
  rw [turned] at heard
  constructor
  · have latch : q.machine.cpu.outPort = after.cpu.outPort := by rw [stepped.cpu]
    rw [latch, one.latch, told.latch, stepped.ports, one.written]
    cases after.ports.lastOut <;> rfl
  · rw [stepped.ports]
    exact heard
  · intro sink present
    rw [stepped.ports, ← heard sink present]
    apply one.taken sink present
    rw [told.heard sink present]
    exact told.taken sink present
  · intro tracing
    have newest : (TraceRow.ofStep q.steps q.addr cell i q.machine).output? =
        after.ports.lastOut := congrArg Ports.lastOut stepped.ports
    rw [stepped.rows, if_pos tracing, stepped.ports, one.written, ← told.rows tracing,
      List.filterMap_cons, newest]
    cases after.ports.lastOut <;> rfl

theorem Leads.tells {n : Nat} {p q : Progress} (leads : Leads rom devices options n p q)
    (inside : p.InRange) (told : p.Tells devices options) : q.Tells devices options := by
  have both := leads.keeps (fun q => q.InRange ∧ q.Tells devices options) ?_ ⟨inside, told⟩
  · exact both.2
  · intro q r cell i after kept stepped
    exact ⟨stepped.inRange rom devices options kept.1,
      stepped.tells rom devices options kept.1.machine.cpu kept.2⟩

structure Refused (q : Progress) (sink : Sink) (value : Int) (failure : Failure) : Prop where
  present : devices.sink? = some sink
  latch : q.machine.cpu.outPort = value
  place : q.addr = q.machine.cpu.pc
  written : ∃ earlier, q.machine.ports.written = value :: earlier ∧ sink.Takes earlier ∧
    (options.trace = true → q.rows.filterMap (·.output?) = earlier)
  raised : sink q.machine.ports.written = some failure

/-- In the end of a loop all outputs are told alike, or the sink has refused the last one. -/
inductive Told : Progress × Option Failure → Prop
  | alike (q : Progress) (failure? : Option Failure) (tells : q.Tells devices options) :
      Told (q, failure?)
  | refused (q : Progress) (sink : Sink) (value : Int) (failure : Failure)
      (refused : q.Refused devices options sink value failure) : Told (q, some failure)

theorem Tells.failed {p q : Progress} {failure : Failure} (told : p.Tells devices options)
    (inside : p.machine.cpu.InRange)
    (turned : p.machine.turn rom devices = (q.machine, some failure))
    (addr : q.addr = p.machine.cpu.pc) (rows : q.rows = p.rows) :
    Told devices options (q, some failure) := by
  obtain ⟨written, fails, leaves⟩ :=
    Machine.turn_fails rom devices p.machine q.machine failure inside turned
  have heard := Machine.turn_tells_sink devices rom p.machine told.heard
  rw [turned] at heard
  have added : q.machine.ports.written = written.reverse ++ p.machine.ports.written := by
    have outputs := congrArg List.reverse leaves.outputs
    simpa only [Ports.outputs, List.reverse_append, List.reverse_reverse] using outputs
  have latch : q.machine.cpu.outPort = written.headD p.machine.cpu.outPort := by rw [leaves.cpu]
  -- of the turns that fail only an output has written something before
  cases fails with
  | word | supplier | sample | hidden =>
      have same : q.machine.ports.written = p.machine.ports.written := added
      refine .alike q _ ⟨?_, heard, ?_, ?_⟩
      · rw [same, latch]
        exact told.latch
      · rw [same]
        exact told.taken
      · rw [same, rows]
        exact told.rows
  | sink cell i sink value _ fetched output present raised =>
      have cons : q.machine.ports.written = value :: p.machine.ports.written := added
      refine .refused q sink value _
        ⟨present, latch, ?_, ⟨_, cons, told.taken sink present, ?_⟩, ?_⟩
      · rw [addr, leaves.cpu]
      · rw [rows]
        exact told.rows
      · rw [cons, ← told.heard sink present]
        exact raised

theorem iterate_told (budget : Nat) (p : Progress) (inside : p.InRange)
    (told : p.Tells devices options) :
    Told devices options (p.iterate rom devices options budget) := by
  cases ran : p.iterate rom devices options budget with
  | mk q failure? =>
      rcases iterate_leads rom devices options budget p q failure? ran with
        ⟨_, n, _, leads, _⟩ | ⟨failure, n, before, rfl, _, leads, taken⟩
      · exact .alike q _ (leads.tells rom devices options inside told)
      · have earlier := leads.tells rom devices options inside told
        have range := leads.inRange rom devices options inside
        obtain ⟨turned, _, addr, rows⟩ := step_some rom devices options before q failure taken
        exact earlier.failed rom devices options range.machine.cpu turned addr rows

end Progress

namespace RunResult

def shownOutputs (result : RunResult) : List Int := result.trace.filterMap (·.output?)

structure RefusedBy (result : RunResult) (sink : Sink) (value : Int) (fault : Fault) : Prop where
  outputs : result.outputs = result.shownOutputs ++ [value]
  taken : sink.Takes result.shownOutputs.reverse
  raised : sink result.outputs.reverse = some (.fault fault)
  error : ∃ shown, result.error? = some shown ∧
    shown.Placed fault result.steps result.machine.cpu.pc

/-- The outputs and what is told of them: the sink is given them all in their order, the last one is
latched, and the rows show them all unless the sink refuses the last. -/
structure History (result : RunResult) (sink? : Option Sink) (tracing : Bool) : Prop where
  heard : ∀ sink ∈ sink?, result.heard = result.outputs
  output : result.output = result.outputs.getLast?.getD 0
  latch : result.machine.cpu.outPort = result.output
  rows : tracing = true →
    (result.shownOutputs = result.outputs ∧ ∀ sink ∈ sink?, sink.Takes result.outputs.reverse) ∨
      ∃ sink ∈ sink?, ∃ value fault, result.RefusedBy sink value fault

theorem output_eq_last (result : RunResult) : result.output = result.outputs.getLast?.getD 0 := by
  rw [output, outputs, Ports.outputs, List.getLast?_reverse, List.headD_eq_head?_getD]

end RunResult

namespace Progress

variable {devices : Devices} {options : RunOptions}

theorem shownOutputs_result (p : Progress) (stop : StopReason) (error? : Option Fault) :
    (p.result stop error?).shownOutputs = (p.rows.filterMap (·.output?)).reverse :=
  List.filterMap_reverse

theorem Refused.refusedBy {q : Progress} {sink : Sink} {value : Int} {fault : Fault}
    (refused : q.Refused devices options sink value (.fault fault)) (tracing : options.trace = true)
    (program? : Option Program) :
    (q.result .error (some (q.locate program? fault))).RefusedBy sink value fault := by
  obtain ⟨earlier, cons, taken, rows⟩ := refused.written
  have shown := q.shownOutputs_result .error (some (q.locate program? fault))
  rw [rows tracing] at shown
  constructor
  · calc
      _ = (value :: earlier).reverse := congrArg List.reverse cons
      _ = earlier.reverse ++ [value] := List.reverse_cons
      _ = _ := by rw [shown]
  · rw [shown, List.reverse_reverse]
    exact taken
  · have outputs : (q.result .error (some (q.locate program? fault))).outputs.reverse =
        q.machine.ports.written := List.reverse_reverse _
    rw [outputs]
    exact refused.raised
  · have placed := q.locate_placed program? fault
    rw [refused.place] at placed
    exact ⟨_, rfl, placed⟩

theorem Tells.rows_result {q : Progress} (told : q.Tells devices options)
    (tracing : options.trace = true) (stop : StopReason) (error? : Option Fault) :
    (q.result stop error?).shownOutputs = (q.result stop error?).outputs ∧
      ∀ sink ∈ devices.sink?, sink.Takes (q.result stop error?).outputs.reverse := by
  have outputs : (q.result stop error?).outputs.reverse = q.machine.ports.written :=
    List.reverse_reverse _
  constructor
  · rw [shownOutputs_result, told.rows tracing]
    rfl
  · rw [outputs]
    exact told.taken

theorem Finished.shows {program? : Option Program} {ending : Progress × Option Failure}
    {result : RunResult} (finished : Finished options program? ending (.ok result))
    (told : Told devices options ending) (tracing : options.trace = true) :
    (result.shownOutputs = result.outputs ∧
        ∀ sink ∈ devices.sink?, sink.Takes result.outputs.reverse) ∨
      ∃ sink ∈ devices.sink?, ∃ value fault, result.RefusedBy sink value fault := by
  cases told with
  | alike q failure? tells =>
      cases finished with
      | failed | halted | spent | exceeded => exact .inl (tells.rows_result tracing _ _)
  | refused q sink value failure refused =>
      cases finished with
      | failed _ fault =>
          exact .inr ⟨sink, refused.present, value, fault, refused.refusedBy tracing program?⟩

theorem Told.latch {ending : Progress × Option Failure} (told : Told devices options ending) :
    ending.1.machine.cpu.outPort = ending.1.machine.ports.written.headD 0 := by
  cases told with
  | alike q failure? tells => exact tells.latch
  | refused q sink value failure refused =>
      obtain ⟨earlier, cons, _⟩ := refused.written
      rw [refused.latch, cons, List.headD_cons]

end Progress

theorem run_history (rom : Rom) (supplier? : Option Supplier) (sink? : Option Sink)
    (options : RunOptions) (program? : Option Program) (result : RunResult)
    (ran : run rom supplier? sink? options program? = .ok result) :
    result.History sink? options.trace := by
  have finished := Progress.finished_of_run rom options supplier? sink? program? result ran
  have told := Progress.iterate_told rom (options.devices supplier? sink?) options options.maxSteps
    .start Progress.start_inRange (Progress.start_tells _ options)
  constructor
  · rintro sink ⟨⟩
    exact heard_eq_outputs rom _ sink options program? result ran
  · exact result.output_eq_last
  · rw [RunResult.output, finished.ends.1]
    exact told.latch
  · exact finished.shows told

/-- A run has one history of outputs, whatever its devices do: the values that the sink was given
are the outputs, in their order; the last of them, or zero, is on the output latch; and the rows of
a trace show them all, except that a value which the sink refuses is the last and has no row. A sink
that never refuses changes nothing but that it is given the outputs. -/
theorem outputs_told_alike (rom : Rom) (supplier? : Option Supplier) (options : RunOptions)
    (program? : Option Program) :
    (∀ sink? result, run rom supplier? sink? options program? = .ok result →
      result.History sink? options.trace) ∧
    ∀ sink : Sink, (∀ values, sink values = none) →
      run rom supplier? none options program? =
        (run rom supplier? (some sink) options program?).map RunResult.unheard :=
  ⟨fun sink? result ran => run_history rom supplier? sink? options program? result ran,
    fun sink taking => runWith_unheard rom _ sink options program? taking⟩

def threeFiveHalt : Rom :=
  ⟨.byte 0xB3 :: .byte 0xB5 :: .byte 0xF2 :: List.replicate 13 (.byte 0xF0), rfl⟩

/-- The second of two values is refused; a device that takes both changes nothing. -/
theorem outputs_told_alike_refused :
    ∃ result fault taking,
      run threeFiveHalt none (some oneValueSink) .standard none = .ok result ∧
      result.heard = [3, 5] ∧ result.output = 5 ∧ result.shownOutputs = [3] ∧
      result.RefusedBy oneValueSink 5 fault ∧
      run threeFiveHalt none (some fun _ => none) .standard none = .ok taking ∧
      run threeFiveHalt none none .standard none = .ok taking.unheard := by
  have evaluated : ∃ result taking,
      run threeFiveHalt none (some oneValueSink) .standard none = .ok result ∧
      result.outputs = [3, 5] ∧ result.shownOutputs = [3] ∧
      run threeFiveHalt none (some fun _ => none) .standard none = .ok taking :=
    ⟨_, _, rfl, rfl, rfl, rfl⟩
  obtain ⟨result, taking, ran, outputs, shown, taken⟩ := evaluated
  obtain ⟨history, unchanged⟩ := outputs_told_alike threeFiveHalt none .standard none
  have told := history (some oneValueSink) result ran
  have same := unchanged (fun _ => none) (fun _ => rfl)
  rw [taken] at same
  rcases told.rows rfl with ⟨all, _⟩ | ⟨sink, present, value, fault, refused⟩
  · rw [shown, outputs] at all
    cases all
  · cases present
    have last := refused.outputs
    rw [outputs, shown] at last
    cases last
    refine ⟨result, fault, taking, ran, ?_, ?_, shown, refused, taken, same⟩
    · rw [told.heard oneValueSink rfl, outputs]
    · rw [told.output, outputs]
      rfl

end FourBit
