import FourBit.Command.Invocation
import FourBit.Command.Loaded
import FourBit.Command.Report
import FourBit.Run.Basic

namespace FourBit.Command

structure Answer where
  out : List Text
  err : List Text
  exit : Except Breach Nat

namespace Answer

def complaint (code : Nat) (line : Text) : Answer := ⟨[], [line], .ok code⟩

def broken (breach : Breach) : Answer := ⟨[], [], .error breach⟩

end Answer

namespace Invocation

def options (asked : Invocation) : Except Breach RunOptions :=
  match asked.policy?, asked.maxSteps? with
  | none, _ => .error (.unknownPolicy (Datum.list []).quoted.asString)
  | some _, none => .error .noCount
  | some policy, some count =>
    RunOptions.ofFields count policy.name asked.trace asked.inputs

/-- A count below one is a complaint, but a count that is no number breaks the session off. What was
printed before stays. -/
def runLoaded (asked : Invocation) (path : Path) (loaded : Loaded) : Answer :=
  let opening := Entry.shown asked.verbosity (loaded.journal path)
  let listing := if asked.listing then loaded.listing else []
  match asked.options with
  | .error .noCount => ⟨listing, opening, .error .noCount⟩
  | .error breach => ⟨listing, opening ++ ["Error: ".toList ++ breach.message.toList], .ok 2⟩
  | .ok options =>
    let started := opening ++ Entry.shown asked.verbosity [startEntry loaded.rom options]
    match run loaded.rom none (some printer) options loaded.program? with
    | .error breach => ⟨listing, started, .error breach⟩
    | .ok result =>
      let (ending, code) := closing asked.verbosity result
      ⟨listing ++ resultLines asked.trace result, started ++ ending, .ok code⟩

def answer (asked : Invocation) (content : Except FileError (List UInt8)) : Answer :=
  let path := Path.ofText asked.program
  match Loaded.ofContent asked.image path content with
  | .ok loaded => asked.runLoaded path loaded
  | .error .missing => .complaint 1 ("Error: Program file not found: ".toList ++ asked.program)
  | .error (.unreadable reason) =>
    .complaint 1 ("Error: Cannot read program file ".toList ++ asked.program ++ ": ".toList ++ reason)
  | .error (.rejected fault) =>
    .complaint 1 ("Error: ".toList ++ fault.message.toList ++ sourceSuffix fault)
  | .error (.broken breach) => .broken breach

end Invocation

def helpLines : List Text :=
  "usage: td4 [options] program".toList ::
    Flag.all.map fun flag => [' ', ' '] ++ List.intercalate ", ".toList flag.spellings

def Dismissal.answer : Dismissal → Answer
  | help => ⟨helpLines, [], .ok 0⟩
  | refused refusal => .complaint 2 ("td4: error: ".toList ++ refusal.message)

def answer (arguments : List Text) (files : FileTree) : Answer :=
  match Invocation.ofArguments arguments with
  | .error dismissal => dismissal.answer
  | .ok asked => asked.answer (files.read (Path.ofText asked.program))

end FourBit.Command
