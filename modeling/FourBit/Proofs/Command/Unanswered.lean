import FourBit.Command.Session
import FourBit.Proofs.Assembly.Wordless
import FourBit.Proofs.Run.Place
import FourBit.Service.Reply

namespace FourBit

open Assembly Reference

namespace Command

theorem ofProgram_ok (source : Text) (program : Program)
    (assembled : assemble source = .ok program) :
    ∃ rom, Loaded.ofProgram program = .ok ⟨rom, some program⟩ := by
  rcases Program.rom_assembled source program assembled with ⟨rom, made⟩
  exact ⟨rom, by simp only [Loaded.ofProgram, made]⟩

theorem ofSource_broken_iff (bytes : List UInt8) (breach : Breach) :
    Loaded.ofSource bytes = .error (.broken breach) ↔
      breach = .emptyStatement ∧
        ∃ source, Utf8.decode bytes = .ok source ∧ BreaksOff source.normalizeNewlines := by
  unfold Loaded.ofSource
  cases Utf8.decode bytes with
  | error malformed => simp
  | ok source =>
      simp only [Except.ok.injEq, exists_eq_left']
      rcases assemble_cases source.normalizeNewlines with
        ⟨program, assembled, sound⟩ | ⟨rejection, fault, refused, reported, _, sound⟩ |
          ⟨rejection, refused, unreported, breaks⟩
      · rcases ofProgram_ok _ program assembled with ⟨rom, loaded⟩
        simp only [assembled, loaded, reduceCtorEq, sound, and_false]
      · simp only [refused, reported, Loaded.ofFailure, Except.error.injEq, reduceCtorEq, sound,
          and_false]
      · simp only [refused, unreported, Loaded.ofFailure, Except.error.injEq,
          LoadError.broken.injEq, breaks, and_true, eq_comm]

theorem ofImage_not_broken (bytes : List UInt8) :
    Loaded.ofImage bytes ≠ .error (.broken .emptyStatement) := by
  unfold Loaded.ofImage
  cases Rom.ofImage bytes with
  | ok rom => simp
  | error misfit =>
      cases misfit with
      | wrongSize | tooLong => simp [Rom.Misfit.failure, Loaded.ofFailure]
      | notByte addr word =>
          cases shown : word.isShown with
          | true => simp [Rom.Misfit.failure, Failure.showing_shown _ shown, Loaded.ofFailure]
          | false => simp [Rom.Misfit.failure, Failure.showing_hidden _ shown, Loaded.ofFailure]

theorem ofContent_broken_iff (image : Bool) (path : Path)
    (content : Except FileError (List UInt8)) :
    Loaded.ofContent image path content = .error (.broken .emptyStatement) ↔
      path.hasNul = false ∧ image = false ∧
        ∃ bytes source, content = .ok bytes ∧ Utf8.decode bytes = .ok source ∧
          BreaksOff source.normalizeNewlines := by
  unfold Loaded.ofContent
  cases path.hasNul with
  | true => simp
  | false =>
      cases content with
      | error error => cases error <;> simp
      | ok bytes =>
          cases image with
          | true => simp [ofImage_not_broken]
          | false => simp [ofSource_broken_iff]

theorem runLoaded_exit (asked : Invocation) (path : Path) (loaded : Loaded) :
    (asked.runLoaded path loaded).exit ≠ .error .emptyStatement := by
  unfold Invocation.runLoaded
  cases asked.options with
  | error breach => cases breach <;> simp
  | ok options =>
      have ending := run_ending loaded.rom none (some printer) options loaded.program?
      cases ran : run loaded.rom none (some printer) options loaded.program? with
      | ok result => simp [ran]
      | error breach =>
          have obliging := options.devices_obliging none (some printer) (by simp) (by simp [printer])
          rw [ran] at ending
          rcases ending.broken_cause with ⟨rfl, _⟩ | raises
          · simp [ran]
          · exact (obliging.silent _ raises).elim

theorem invocation_unanswered_iff (asked : Invocation)
    (content : Except FileError (List UInt8)) :
    (asked.answer content).exit = .error .emptyStatement ↔
      Loaded.ofContent asked.image (.ofText asked.program) content =
        .error (.broken .emptyStatement) := by
  cases loading : Loaded.ofContent asked.image (.ofText asked.program) content with
  | ok loaded => simp only [Invocation.answer, loading, runLoaded_exit, reduceCtorEq]
  | error error =>
      cases error <;> simp [Invocation.answer, loading, Answer.complaint, Answer.broken]

theorem answer_unanswered_iff (arguments : List Text) (files : FileTree) :
    (answer arguments files).exit = .error .emptyStatement ↔
      ∃ asked bytes source, Invocation.ofArguments arguments = .ok asked ∧
        (Path.ofText asked.program).hasNul = false ∧ asked.image = false ∧
        files.read (.ofText asked.program) = .ok bytes ∧ Utf8.decode bytes = .ok source ∧
        BreaksOff source.normalizeNewlines := by
  unfold answer
  cases Invocation.ofArguments arguments with
  | error dismissal =>
      cases dismissal <;> simp [Dismissal.answer, Answer.complaint]
  | ok asked =>
      simp only [invocation_unanswered_iff, ofContent_broken_iff, Except.ok.injEq, exists_and_left,
        exists_eq_left']

end Command

namespace Service

theorem RunRequest.shown_of_badSample (request : RunRequest) (sound : request.badSample? = none) :
    ∀ sample ∈ request.options.inputs, sample.isShown = true := by
  intro sample listed
  have nibble := List.find?_eq_none.mp sound sample listed
  obtain ⟨n, small⟩ := Option.ne_none_iff_exists'.mp (by simpa using nibble)
  exact Datum.isShown_of_nibble small

theorem badSample_error_iff (sample : Datum) (failure : Failure) :
    badSample sample = .error failure ↔
      failure = .breach .longNumber ∧ sample.isShown = false := by
  unfold badSample
  cases sample.isShown with
  | true => simp
  | false => simp [eq_comm]

theorem reply_error_iff (request : RunRequest) (failure : Failure) :
    request.reply = .error failure ↔
      fits request.program = true ∧
        ((failure = .breach .emptyStatement ∧ request.badSample? = none ∧
            BreaksOff request.program) ∨
          (failure = .breach .longNumber ∧
            ∃ sample, request.badSample? = some sample ∧ sample.isShown = false)) := by
  unfold RunRequest.reply
  cases fits request.program with
  | false => simp
  | true =>
      cases sound : request.badSample? with
      | some sample => simp [badSample_error_iff]
      | none =>
          rcases runProgram_cases request.program request.options
              (request.shown_of_badSample sound) with
            ⟨result, ran, whole⟩ | ⟨ran, breaks⟩
          · simp [ran, Except.map, whole]
          · simp [ran, Except.map, breaks, eq_comm (b := failure)]

theorem replyToProgram_error_iff (program : Text) (failure : Failure) :
    replyToProgram program = .error failure ↔
      fits program = true ∧ failure = .breach .emptyStatement ∧ BreaksOff program := by
  unfold replyToProgram
  cases fits program with
  | false => simp
  | true =>
      rcases assemble_cases program with
        ⟨assembled, ok, sound⟩ | ⟨rejection, fault, refused, reported, _, sound⟩ |
          ⟨rejection, refused, unreported, breaks⟩
      · rcases Program.rom_assembled program assembled ok with ⟨rom, made⟩
        simp [ok, made, sound]
      · simp [refused, reported, sound]
      · simp [refused, unreported, breaks, eq_comm]

namespace Validator

variable (validator : Validator) (body : Datum) (failure : Failure)

theorem run_error_iff :
    validator.run body = .error failure ↔
      ∃ request, validator.runRequest body = .ok request ∧ fits request.program = true ∧
        ((failure = .breach .emptyStatement ∧ request.badSample? = none ∧
            BreaksOff request.program) ∨
          (failure = .breach .longNumber ∧
            ∃ sample, request.badSample? = some sample ∧ sample.isShown = false)) := by
  unfold run
  cases validator.runRequest body with
  | error violations => simp
  | ok request => simp only [reply_error_iff, Except.ok.injEq, exists_eq_left']

theorem assemble_error_iff :
    validator.assemble body = .error failure ↔
      failure = .breach .emptyStatement ∧
        ∃ program, validator.program body = .ok program ∧ fits program = true ∧
          BreaksOff program := by
  unfold assemble
  cases validator.program body with
  | error violations => simp
  | ok program =>
      simp only [replyToProgram_error_iff, Except.ok.injEq, exists_eq_left']
      constructor
      · rintro ⟨short, broken, breaks⟩
        exact ⟨broken, short, breaks⟩
      · rintro ⟨broken, short, breaks⟩
        exact ⟨short, broken, breaks⟩

end Validator

end Service

/-- Every source is answered with a program or an error of assembly, unless its first statement that
spells no form is made of commas and blanks. Such a source, and no other, leaves without an answer a
run on samples that can be shown, a session, and a request whatever reads its body; only a sample
that is refused but cannot be shown does so to a request as well. -/
theorem unanswered_iff_breaksOff (source : Text) (options : RunOptions) (arguments : List Text)
    (files : Command.FileTree) (validator : Service.Validator) (body : Datum) (failure : Failure) :
    (Answered source ↔ ¬ BreaksOff source) ∧
    ((∀ sample ∈ options.inputs, sample.isShown = true) →
      ((∃ result, runProgram source none none options = .ok result) ↔ ¬ BreaksOff source)) ∧
    ((Command.answer arguments files).exit = .error .emptyStatement ↔
      ∃ asked bytes text, Command.Invocation.ofArguments arguments = .ok asked ∧
        (Command.Path.ofText asked.program).hasNul = false ∧ asked.image = false ∧
        files.read (.ofText asked.program) = .ok bytes ∧ Utf8.decode bytes = .ok text ∧
        BreaksOff text.normalizeNewlines) ∧
    (validator.run body = .error failure ↔
      ∃ request, validator.runRequest body = .ok request ∧
        Service.fits request.program = true ∧
        ((failure = .breach .emptyStatement ∧ request.badSample? = none ∧
            BreaksOff request.program) ∨
          (failure = .breach .longNumber ∧
            ∃ sample, request.badSample? = some sample ∧ sample.isShown = false))) ∧
    (validator.assemble body = .error failure ↔
      failure = .breach .emptyStatement ∧
        ∃ program, validator.program body = .ok program ∧ Service.fits program = true ∧
          BreaksOff program) := by
  refine ⟨answered_iff source, ?_, Command.answer_unanswered_iff arguments files,
    validator.run_error_iff body failure, validator.assemble_error_iff body failure⟩
  intro shown
  rcases runProgram_cases source options shown with ⟨result, ran, sound⟩ | ⟨ran, breaks⟩
  · exact iff_of_true ⟨result, ran⟩ sound
  · refine iff_of_false ?_ (not_not_intro breaks)
    intro answered
    obtain ⟨result, finished⟩ := answered
    cases ran.symm.trans finished

/-- A comma alone is neither a program nor reported. -/
theorem comma_unanswered :
    ¬ Answered [','] ∧ runProgram [','] none none .standard = .error (.breach .emptyStatement) := by
  refine ⟨?_, rfl⟩
  intro answered
  rcases answered with ⟨program, assembled⟩ | ⟨rejection, fault, refused, reported, _⟩
  · cases assembled
  · cases refused
    cases reported

end FourBit
