import FourBit.Proofs.Assembly.Wordless
import FourBit.Proofs.Run.Onlookers
import FourBit.Proofs.Run.Unfailing
import FourBit.Service.Reply

/-! Requests to run a program: what they come to once they are accepted, and that the words which a
request to assemble is answered with run the same way. -/

namespace FourBit

open Assembly Reference

namespace Service

theorem both_ok_iff {α β : Type} (first : Checked α) (second : Checked β) (both : α × β) :
    Checked.both first second = .ok both ↔ first = .ok both.1 ∧ second = .ok both.2 := by
  obtain ⟨a, b⟩ := both
  cases first <;> cases second <;> simp [Checked.both]

theorem map_ok_iff {α β : Type} (checked : Checked α) (f : α → β) (b : β) :
    checked.map f = .ok b ↔ ∃ a, checked = .ok a ∧ f a = b := by
  cases checked <;> simp [Except.map]

theorem optional_ok {α : Type} (check : Location → Datum → Checked α) (standard value : α)
    (fields : List (Text × Datum)) (location : Location) (name : String)
    (given : optional check standard fields location name = .ok value) :
    value = standard ∨ ∃ place datum, check place datum = .ok value := by
  unfold optional at given
  cases found : Field.find? fields name with
  | none =>
      rw [found] at given
      cases given
      exact .inl rfl
  | some datum =>
      rw [found] at given
      exact .inr ⟨_, datum, given⟩

theorem standard_bound : (RunOptions.standard.maxSteps : Int) ≤ maxStepsBound := by decide

theorem intBetween_bound (least greatest value : Int) (location : Location) (datum : Datum)
    (given : Field.intBetween least greatest location datum = .ok value) :
    least ≤ value ∧ value ≤ greatest := by
  unfold Field.intBetween at given
  split at given
  · cases given
  · split at given
    · cases given
    · split at given
      · cases given
      · cases given
        omega

theorem StepCount.read_bound (location : Location) (datum : Datum) (count : StepCount)
    (given : StepCount.read location datum = .ok count) : (count.value : Int) ≤ maxStepsBound := by
  unfold StepCount.read at given
  split at given
  · cases given
  · rename_i value between
    have bounds := intBetween_bound 1 maxStepsBound value location datum between
    split at given
    · cases given
      exact (Int.toNat_of_nonneg (by omega)).le.trans bounds.2
    · cases given

theorem readOptions_bound (location : Location) (datum : Datum) (options : RunOptions)
    (given : readOptions location datum = .ok options) :
    (options.maxSteps : Int) ≤ maxStepsBound := by
  unfold readOptions at given
  split at given
  · cases given
    exact standard_bound
  · obtain ⟨⟨count, policy, trace⟩, both, rfl⟩ := (map_ok_iff _ _ _).mp given
    obtain ⟨counted, _⟩ := (both_ok_iff _ _ _).mp both
    rcases optional_ok _ _ _ _ _ _ counted with standard | ⟨place, number, read⟩
    · simp only at standard
      subst standard
      exact standard_bound
    · exact StepCount.read_bound place number count read
  · cases given

/-- What an accepted body delivers. -/
structure RunRequest.Delivered (request : RunRequest) : Prop where
  inputs : ∃ values : List Int, request.options.inputs = values.map .int
  bound : (request.options.maxSteps : Int) ≤ maxStepsBound

theorem ofBody_delivered (body : Datum) (request : RunRequest)
    (accepted : RunRequest.ofBody body = .ok request) : request.Delivered := by
  unfold RunRequest.ofBody at accepted
  obtain ⟨fields, present, read⟩ := (bind_ok_iff _ _ _).mp accepted
  obtain ⟨⟨program, inputs, options⟩, all, rfl⟩ := (map_ok_iff _ _ _).mp read
  obtain ⟨_, others⟩ := (both_ok_iff _ _ _).mp all
  obtain ⟨_, chosen⟩ := (both_ok_iff _ _ _).mp others
  refine ⟨⟨inputs, rfl⟩, ?_⟩
  rcases optional_ok _ _ _ _ _ _ chosen with standard | ⟨place, record, given⟩
  · simp only at standard
    subst standard
    exact standard_bound
  · exact readOptions_bound place record options given

theorem badSample_none (request : RunRequest)
    (nibbles : ∀ input ∈ request.options.inputs, ∃ n, input.nibble? = some n) :
    request.badSample? = none := by
  apply List.find?_eq_none.mpr
  intro input listed
  obtain ⟨n, nibble⟩ := nibbles input listed
  simp [nibble]

theorem RunRequest.Delivered.nibbles {request : RunRequest} (delivered : request.Delivered)
    (small : ∀ n, .int n ∈ request.options.inputs → 0 ≤ n ∧ n ≤ 15) :
    ∀ input ∈ request.options.inputs, ∃ n, input.nibble? = some n := by
  intro input listed
  obtain ⟨values, inputs⟩ := delivered.inputs
  rw [inputs] at listed
  obtain ⟨n, among, rfl⟩ := List.mem_map.mp listed
  have bounds : 0 ≤ n ∧ n ≤ 15 := by
    apply small n
    rw [inputs]
    exact List.mem_map.mpr ⟨n, among, rfl⟩
  exact ⟨_, if_pos bounds⟩

end Service

theorem FaultKind.parse_not_runtime (kind : FaultKind) (parse : .parse ∈ kind.lineage) :
    kind ≠ .inputOutOfRange ∧ kind ≠ .decode := by
  constructor <;> rintro rfl <;> simp [lineage] at parse

section Requests

open Service

variable (validator : Validator)

theorem Service.run_of_runProgram (body : Datum) (request : RunRequest) (result : RunResult)
    (accepted : validator.runRequest body = .ok request)
    (short : request.program.length ≤ maxProgramSize)
    (nibbles : ∀ input ∈ request.options.inputs, ∃ n, input.nibble? = some n)
    (ran : runProgram request.program none none request.options = .ok result) :
    validator.run body = .ok (.ran result) := by
  have fit : fits request.program = true := decide_eq_true short
  simp only [Validator.run, accepted, RunRequest.reply, fit, if_true,
    badSample_none request nibbles, ran, Except.map]

theorem Service.words_run_alike (source : Text) (program : Program) (rom : Rom)
    (options : RunOptions) (result : RunResult) (body : Datum)
    (short : source.length ≤ maxProgramSize) (asked : validator.program body = .ok source)
    (assembled : Assembly.assemble source = .ok program) (made : program.rom = .ok rom)
    (cells : rom.cells = (program.words ++ Rom.padding program.words.length).map .byte)
    (shown : ∀ sample ∈ options.inputs, sample.isShown = true)
    (ran : FourBit.run rom none none options (some program) = .ok result) :
    validator.assemble body = .ok (.assembled program rom) ∧
      Rom.ofWords (Rom.data rom.bytes) = .ok rom ∧
      ∃ other, FourBit.run rom none none options none = .ok other ∧
        other.unsourced = result.unsourced := by
  have fit : fits source = true := decide_eq_true short
  refine ⟨?_, rom.ofWords_bytes _ cells, ?_⟩
  · simp only [Validator.assemble, asked, replyToProgram, fit, if_true, assembled, made]
  · obtain ⟨other, done⟩ := run_unattended rom options none shown
    exact ⟨other, done, unsourced_eq rom _ options none (some program) other result done ran⟩

/-- A request that is accepted by whatever delivers whole numbers as samples, with a program and
samples within the limits and no statement made of separators alone, is answered with a run. A
program that is not assembled is an error of assembly without a step. One that is assembled spends
its budget under the one policy; under the other it halts or exceeds the budget. No sample is out of
range and every word decodes. The words that a request to assemble the program is answered with run
the same way, but for the line that the error shows. -/
theorem run_request_outcome (body : Datum) (request : RunRequest)
    (accepted : validator.runRequest body = .ok request) (delivered : request.Delivered)
    (short : request.program.length ≤ maxProgramSize)
    (small : ∀ n, .int n ∈ request.options.inputs → 0 ≤ n ∧ n ≤ 15)
    (worded : ∀ lines, Reads request.program lines → [] ∉ statementsOf lines) :
    ∃ result, validator.run body = .ok (.ran result) ∧ (Reply.ran result).status = 200 ∧
      (∀ fault ∈ result.error?, fault.kind ≠ .inputOutOfRange ∧ fault.kind ≠ .decode) ∧
      ((∀ program, Assembly.assemble request.program ≠ .ok program) →
        result.status = "error" ∧ result.steps = 0 ∧
        ∃ fault, result.error? = some fault ∧ .parse ∈ fault.kind.lineage) ∧
      ∀ program, Assembly.assemble request.program = .ok program →
        result.Unfailing request.options ∧
        ∀ other, validator.program other = .ok request.program →
          ∃ rom again same, validator.assemble other = .ok (.assembled program rom) ∧
            Rom.ofWords (Rom.data rom.bytes) = .ok again ∧
            FourBit.run again none none request.options none = .ok same ∧
            same.unsourced = result.unsourced := by
  have nibbles := delivered.nibbles small
  have shown : ∀ sample ∈ request.options.inputs, sample.isShown = true := by
    intro sample listed
    obtain ⟨n, nibble⟩ := nibbles sample listed
    exact Datum.isShown_of_nibble nibble
  rcases assemble_cases request.program with
    ⟨program, assembled, _⟩ | ⟨rejection, fault, refused, reported, parse, _⟩ |
      ⟨_, _, _, breaks⟩
  · obtain ⟨rom, made, cells⟩ := program.rom_ok (length_words_le _ program assembled)
    obtain ⟨result, ran, unfailing⟩ := runWith_unfailing rom _ request.options (some program)
      (program.rom_executable rom cells) (request.options.devices_feeding nibbles)
    have whole : runProgram request.program none none request.options = .ok result := by
      have same : FourBit.run rom none none request.options (some program) = .ok result := ran
      simp only [runProgram, assembled, made, same]
    refine ⟨result, run_of_runProgram validator body request result accepted short nibbles whole,
      rfl, ?_, ?_, ?_⟩
    · intro fault given
      rw [unfailing.kind fault given]
      decide
    · intro unassembled
      exact (unassembled program assembled).elim
    · intro again known
      cases assembled.symm.trans known
      refine ⟨unfailing, ?_⟩
      intro other asked
      obtain ⟨answer, words, same, done, alike⟩ := words_run_alike validator request.program program
        rom request.options result other short asked assembled made cells shown ran
      exact ⟨rom, rom, same, answer, words, done, alike⟩
  · have whole : runProgram request.program none none request.options = .ok (.rejected fault) := by
      simp only [runProgram, refused, reported]
    refine ⟨.rejected fault, run_of_runProgram validator body request _ accepted short nibbles whole,
      rfl, ?_, ?_, ?_⟩
    · rintro given ⟨⟩
      exact fault.kind.parse_not_runtime parse
    · intro _
      exact ⟨rfl, rfl, fault, rfl, parse⟩
    · intro program assembled
      cases refused.symm.trans assembled
  · exact (not_breaksOff _ worded breaks).elim

def echoBody : Datum :=
  .record [("program".toList, .text "Again: in b ; sample\nout b\njmp again".toList),
    ("inputs".toList, .list [.int 3, .int 9]),
    ("options".toList, .record [("max_steps".toList, .text "5".toList)])]

theorem run_request_outcome_echo :
    ∃ request result fault program rom again other,
      Validator.lenient.runRequest echoBody = .ok request ∧ request.Delivered ∧
      Validator.lenient.run echoBody = .ok (.ran result) ∧
      result.outputs = [3, 9] ∧ result.steps = 5 ∧ result.error? = some fault ∧
      fault.kind = .stepLimitExceeded ∧ fault.line? = some 2 ∧
      Validator.lenient.assemble echoBody = .ok (.assembled program rom) ∧
      Rom.ofWords (Rom.data rom.bytes) = .ok again ∧
      FourBit.run again none none request.options none = .ok other ∧
      other.unsourced = result.unsourced := by
  have evaluated : ∃ request program result fault,
      Validator.lenient.runRequest echoBody = .ok request ∧
      Validator.lenient.program echoBody = .ok request.program ∧
      Assembly.assemble request.program = .ok program ∧
      Validator.lenient.run echoBody = .ok (.ran result) ∧ result.outputs = [3, 9] ∧
      result.steps = 5 ∧ result.error? = some fault ∧ fault.line? = some 2 ∧
      request.program = "Again: in b ; sample\nout b\njmp again".toList ∧
      request.options.inputs = [.int 3, .int 9] :=
    ⟨_, _, _, _, rfl, rfl, rfl, rfl, rfl, rfl, rfl, rfl, rfl, rfl⟩
  obtain ⟨request, program, result, fault, accepted, named, assembled, ran, outputs, steps, error,
    line, text, inputs⟩ := evaluated
  have delivered := ofBody_delivered echoBody request accepted
  have short : request.program.length ≤ maxProgramSize := by
    rw [text]
    decide
  have small : ∀ n, .int n ∈ request.options.inputs → 0 ≤ n ∧ n ≤ 15 := by
    intro n listed
    simp only [inputs, List.mem_cons, Datum.int.injEq, List.not_mem_nil, or_false] at listed
    omega
  have worded : ∀ lines, Reads request.program lines → [] ∉ statementsOf lines := by
    intro lines reads
    rw [← (reads_source_iff _ lines).mp reads, text]
    decide
  obtain ⟨result', ran', _, _, _, agree⟩ :=
    run_request_outcome .lenient echoBody request accepted delivered short small worded
  cases ran.symm.trans ran'
  obtain ⟨unfailing, alike⟩ := agree program assembled
  obtain ⟨rom, again, other, answer, words, done, same⟩ := alike echoBody named
  exact ⟨request, result, fault, program, rom, again, other, accepted, delivered, ran, outputs,
    steps, error, unfailing.kind fault error, line, answer, words, done, same⟩

end Requests

end FourBit
