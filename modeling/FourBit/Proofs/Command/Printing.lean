import FourBit.Proofs.Assembly.Newlines
import FourBit.Proofs.Command.Asking
import FourBit.Proofs.Command.Unanswered
import FourBit.Proofs.Run.Onlookers
import FourBit.Proofs.Run.Trace
import FourBit.Proofs.Text.Utf8

namespace FourBit

open Assembly

def Program.image (program : Program) : List UInt8 :=
  program.words.map fun word : Fin 256 => UInt8.ofNat word

theorem Program.ofImage_image (program : Program) : Rom.ofImage program.image = program.rom :=
  Rom.ofImage_data program.words

namespace Command

theorem ofContent_source (path : Path) (source : Text) (program : Program) (rom : Rom)
    (named : path.hasNul = false) (follow : source.FeedsFollow)
    (assembled : assemble source = .ok program) (made : program.rom = .ok rom) :
    Loaded.ofContent false path (.ok (source.flatMap String.utf8EncodeChar)) =
      .ok ⟨rom, some program⟩ := by
  have read := assemble_normalizeNewlines source follow
  simp only [Loaded.ofContent, named, Bool.false_eq_true, if_false, Loaded.ofSource,
    Utf8.decode_encode, read, assembled, Loaded.ofProgram, made]

theorem ofContent_image (path : Path) (program : Program) (rom : Rom)
    (named : path.hasNul = false) (made : program.rom = .ok rom) :
    Loaded.ofContent true path (.ok program.image) = .ok ⟨rom, none⟩ := by
  simp only [Loaded.ofContent, named, Bool.false_eq_true, if_false, if_true, Loaded.ofImage,
    program.ofImage_image, made]

theorem run_printed_alike (rom : Rom) (options : RunOptions) (program? other? : Option Program)
    (result : RunResult) (shown : ∀ sample ∈ options.inputs, sample.isShown = true)
    (ran : run rom none none options other? = .ok result) :
    ∃ printed, run rom none (some printer) options program? = .ok printed ∧
      printed.heard = result.outputs ∧ printed.trace = result.trace ∧
      printed.error?.isSome = result.error?.isSome := by
  obtain ⟨quiet, silent⟩ := run_unattended rom options program? shown
  have unheard : run rom none none options program? =
      (run rom none (some printer) options program?).map RunResult.unheard :=
    runWith_unheard rom _ printer options program? fun _ => rfl
  -- The silent run has a result, and so the printed one has: they differ in what is heard.
  cases done : run rom none (some printer) options program? with
  | error breach =>
      rw [silent, done] at unheard
      cases unheard
  | ok printed =>
      rw [done] at unheard
      have heard := heard_eq_outputs rom _ printer options program? printed done
      have same : printed.unheard.unsourced = result.unsourced :=
        unsourced_eq rom _ options program? other? _ _ unheard ran
      have outputs : printed.unheard.unsourced.outputs = result.unsourced.outputs :=
        congrArg RunResult.outputs same
      have trace : printed.unheard.unsourced.trace = result.unsourced.trace :=
        congrArg RunResult.trace same
      have errors := congrArg (fun shown => shown.error?.isSome) same
      refine ⟨printed, rfl, heard.trans outputs, trace, ?_⟩
      simpa only [RunResult.unsourced, RunResult.unheard, Option.isSome_map] using errors

theorem closing_code (verbosity : Nat) (result : RunResult) :
    (closing verbosity result).2 = if result.error?.isSome then 1 else 0 := by
  unfold closing
  cases result.error? <;> rfl

theorem exit_status (result : RunResult) :
    (if result.error?.isSome then 1 else 0) = if result.status = "ok" then 0 else 1 := by
  unfold RunResult.status
  cases result.error? <;> rfl

/-- What is printed about a run: a line for each value that it writes out, and under a trace a
header and a line for each step. -/
def printedLines (trace : Bool) (result : RunResult) : List Text :=
  result.outputs.map portLine ++ if trace then traceHeader :: result.trace.map traceLine else []

theorem answer_of_asks (arguments : List Text) (files : FileTree) (image : Bool)
    (content : List UInt8) (options : RunOptions) (rom : Rom) (program? other? : Option Program)
    (result : RunResult) (asks : Asks arguments files image content options)
    (loads : ∀ path : Path, path.hasNul = false →
      Loaded.ofContent image path (.ok content) = .ok ⟨rom, program?⟩)
    (ran : run rom none none options other? = .ok result) :
    (answer arguments files).out = printedLines options.trace result ∧
      (answer arguments files).exit = .ok (if result.status = "ok" then 0 else 1) := by
  obtain ⟨printed, done, heard, trace, errors⟩ :=
    run_printed_alike rom options program? other? result asks.shown ran
  obtain ⟨asked, given, orders, named, read⟩ := asks
  have loaded := loads _ named
  rw [← orders.image] at loaded
  simp only [answer, given, read, Invocation.answer, loaded, Invocation.runLoaded, orders.options,
    done, orders.listing, Bool.false_eq_true, if_false, List.nil_append, resultLines, printedLines,
    orders.trace, heard, trace, closing_code, errors, exit_status, and_self]

end Command

/-- A source without stray carriage returns and the image of its words are answered alike: a line
for each value that a run of the source writes out, and under a trace a header and a line for each
step; the exit code tells whether the run came to an error. -/
theorem source_and_image_agree (source : Text) (program : Program) (options : RunOptions)
    (first second : List Text) (files others : Command.FileTree) (follow : source.FeedsFollow)
    (assembled : assemble source = .ok program)
    (asksSource :
      Command.Asks first files false (source.flatMap String.utf8EncodeChar) options)
    (asksImage : Command.Asks second others true program.image options) :
    (Command.answer first files).out = (Command.answer second others).out ∧
    (Command.answer first files).exit = (Command.answer second others).exit ∧
    ∃ result, runProgram source none none options = .ok result ∧
      (Command.answer first files).out = Command.printedLines options.trace result ∧
      (options.trace = true → result.trace.length = result.steps) ∧
      (Command.answer first files).exit = .ok (if result.status = "ok" then 0 else 1) := by
  obtain ⟨rom, made⟩ := Program.rom_assembled source program assembled
  obtain ⟨result, ran⟩ := run_unattended rom options (some program) asksSource.shown
  obtain ⟨out, exit⟩ := Command.answer_of_asks first files false _ options rom (some program)
    (some program) result asksSource
    (fun path named => Command.ofContent_source path source program rom named follow assembled made)
    ran
  obtain ⟨out', exit'⟩ := Command.answer_of_asks second others true _ options rom none
    (some program) result asksImage
    (fun path named => Command.ofContent_image path program rom named made) ran
  refine ⟨out.trans out'.symm, exit.trans exit'.symm, result, ?_, out, ?_, exit⟩
  · simp only [runProgram, assembled, made, ran]
  · intro tracing
    exact Progress.length_trace rom _ options tracing (some program) result ran

def echoing : Text := "; \u00E9cho\r\nagain: in b\n  out b\r\n  jmp again".toList

def sixSteps : RunOptions := ⟨6, by decide, .selfLoop, true, [.int 3, .int 9]⟩

def echoFiles : Command.FileTree :=
  ⟨[], [(["echo.td4".toList], echoing.flatMap String.utf8EncodeChar),
    (["echo.bin".toList], [0x60, 0x90, 0xF0])]⟩

def echoCommand (image : Bool) (name : Text) : List Text :=
  Command.commandLine ["3".toList, "0b1001".toList] "0_6".toList .selfLoop true image name

theorem echo_asks (image : Bool) (name : Text) (content : List UInt8) (free : Command.IsPlain name)
    (named : (Command.Path.ofText name).hasNul = false)
    (present : echoFiles.read (.ofText name) = .ok content) :
    Command.Asks (echoCommand image name) echoFiles image content sixSteps :=
  Command.asks_commandLine _ _ name image sixSteps echoFiles content (by decide)
    (.cons rfl (.cons rfl .nil)) (by decide) rfl free named present

theorem source_and_image_agree_echo :
    ∃ program result, assemble echoing = .ok program ∧ program.image = [0x60, 0x90, 0xF0] ∧
      echoing.FeedsFollow ∧ runProgram echoing none none sixSteps = .ok result ∧
      result.outputs = [3, 9] ∧ result.trace.length = 6 ∧
      (Command.answer (echoCommand false "echo.td4".toList) echoFiles).out =
        Command.printedLines true result ∧
      (Command.answer (echoCommand true "echo.bin".toList) echoFiles).out =
        Command.printedLines true result ∧
      (Command.answer (echoCommand true "echo.bin".toList) echoFiles).exit = .ok 1 := by
  have evaluated : ∃ program result, assemble echoing = .ok program ∧
      program.image = [0x60, 0x90, 0xF0] ∧
      runProgram echoing none none sixSteps = .ok result ∧ result.outputs = [3, 9] ∧
      result.steps = 6 ∧ result.status = "error" :=
    ⟨_, _, rfl, rfl, rfl, rfl, rfl, rfl⟩
  obtain ⟨program, result, assembled, image, ran, outputs, steps, status⟩ := evaluated
  have follow : echoing.FeedsFollow := by decide
  have asksImage := echo_asks true "echo.bin".toList [0x60, 0x90, 0xF0] (by decide) rfl rfl
  rw [← image] at asksImage
  obtain ⟨out, exit, result', ran', printed, rows, code⟩ := source_and_image_agree echoing program
    sixSteps _ _ echoFiles echoFiles follow assembled
    (echo_asks false "echo.td4".toList _ (by decide) rfl rfl) asksImage
  cases ran.symm.trans ran'
  refine ⟨program, result, assembled, image, follow, ran, outputs, (rows rfl).trans steps, printed,
    out.symm.trans printed, ?_⟩
  rw [← exit, code, status]
  rfl

end FourBit
