import FourBit.Command.Journal
import FourBit.Rom.Listing
import FourBit.Run.Result
import FourBit.Run.Options

namespace FourBit.Command

def sourceSuffix (fault : Fault) : Text :=
  match fault.line?, fault.source? with
  | some line, some source =>
    " (line ".toList ++ Text.decimal line ++ ": ".toList ++ source ++ [')']
  | _, _ => []

def portLine (value : Int) : Text := "Port (B) Out: ".toList ++ Text.decimal value

def traceHeader : Text := "step addr  instruction   A  B Cy PC IN OUT".toList

def portColumn (width : Nat) : Option Int → Text
  | none => Text.alignRight width []
  | some value => Text.alignRight width (Text.decimal value)

def traceLine (row : TraceRow) : Text :=
  Text.alignRight 4 (Text.decimal row.step) ++ [' '] ++ Text.alignRight 4 (Text.decimal row.addr) ++
    [' ', ' '] ++ Text.alignLeft 12 row.instruction.text ++ [' '] ++
    Text.alignRight 2 (Text.decimal row.a) ++ [' '] ++ Text.alignRight 2 (Text.decimal row.b) ++
    [' '] ++ Text.alignRight 2 (Text.decimal row.carry) ++ [' '] ++
    Text.alignRight 2 (Text.decimal row.pc) ++ [' '] ++ portColumn 2 row.input? ++ [' '] ++
    portColumn 3 row.output?

def printer : Sink := fun _ => none

def resultLines (trace : Bool) (result : RunResult) : List Text :=
  result.heard.map portLine ++
    if trace then traceHeader :: result.trace.map traceLine else []

def startEntry (rom : Rom) (options : RunOptions) : Entry :=
  ⟨.debug, .runner, "Starting run: rom=".toList ++ rom.hexdump ++ " policy=".toList ++
    options.policy.name.toList ++ " max_steps=".toList ++ Text.decimal options.maxSteps⟩

def stopText (result : RunResult) : Text :=
  ['('] ++ result.stop.name.toList ++ ") after ".toList ++ Text.decimal result.steps ++
    " step(s)".toList

def closing (verbosity : Nat) (result : RunResult) : List Text × Nat :=
  match result.error? with
  | some fault =>
    (Entry.shown verbosity [⟨.warning, .runner, "Run failed at step ".toList ++
        Text.decimal fault.step ++ ", address ".toList ++ Text.decimal fault.addr ++ ": ".toList ++
        fault.message.toList⟩] ++
      [fault.kind.name.toList ++ " at address ".toList ++ Text.decimal fault.addr ++ ": ".toList ++
        fault.message.toList ++ sourceSuffix fault], 1)
  | none =>
    (Entry.shown verbosity [⟨.debug, .runner, "Run stopped ".toList ++ stopText result⟩,
      ⟨.info, .commandLine, "Stopped ".toList ++ stopText result⟩], 0)

end FourBit.Command
