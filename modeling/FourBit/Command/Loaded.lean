import FourBit.Assembly.Program
import FourBit.Command.FileTree
import FourBit.Command.Journal
import FourBit.Text.Utf8

namespace FourBit.Command

structure Loaded where
  rom : Rom
  program? : Option Program
  deriving Repr

inductive LoadError where
  | missing
  | unreadable (reason : Text)
  | rejected (fault : Fault)
  | broken (breach : Breach)
  deriving Repr

namespace Loaded

def ofFailure : Failure → LoadError
  | .fault fault => .rejected fault
  | .breach breach => .broken breach

def ofImage (bytes : List UInt8) : Except LoadError Loaded :=
  match Rom.ofImage bytes with
  | .ok rom => .ok ⟨rom, none⟩
  | .error misfit => .error (ofFailure misfit.failure)

def ofProgram (program : Program) : Except LoadError Loaded :=
  match program.rom with
  | .ok rom => .ok ⟨rom, some program⟩
  | .error misfit => .error (ofFailure misfit.failure)

def ofSource (bytes : List UInt8) : Except LoadError Loaded :=
  match Utf8.decode bytes with
  | .error malformed => .error (.unreadable malformed.message.toList)
  | .ok source =>
    match Assembly.assemble (Text.normalizeNewlines source) with
    | .error rejection => .error (ofFailure rejection.failure)
    | .ok program => ofProgram program

def ofContent (image : Bool) (path : Path) (content : Except FileError (List UInt8)) :
    Except LoadError Loaded :=
  if path.hasNul then .error (.broken .nulInPath)
  else match content with
    | .error .notFound => .error .missing
    | .error error => .error (.unreadable (error.message path.text))
    | .ok bytes => if image then ofImage bytes else ofSource bytes

def listing (loaded : Loaded) : List Text :=
  match loaded.program? with
  | some program => program.listing
  | none => loaded.rom.listing

def journal (loaded : Loaded) (path : Path) : List Entry :=
  (match loaded.program? with
    | some program =>
      [⟨.debug, .assembler, "Assembled ".toList ++ Text.decimal program.words.length ++
        " instruction(s), ".toList ++ Text.decimal program.labels.length ++ " label(s)".toList⟩]
    | none => []) ++
  [⟨.info, .commandLine, "Loaded ".toList ++ path.text ++ ": ".toList ++ loaded.rom.hexdump⟩]

end Loaded

end FourBit.Command
