import FourBit.Assembly.Encoding
import FourBit.Rom.Listing

namespace FourBit

structure SourceInstruction where
  addr : Nat
  instruction : Instruction
  line : Nat
  source : Text
  body : Text
  deriving DecidableEq, Repr

structure Program where
  instructions : List SourceInstruction
  labels : List (Text × Nat)
  deriving DecidableEq, Repr

namespace Program

def words (program : Program) : List (Fin 256) :=
  program.instructions.map (·.instruction.byte)

def rom (program : Program) : Except Rom.Misfit Rom :=
  Rom.ofProgram (program.words.map fun word : Fin 256 => .int (word : Nat))

def at? (program : Program) (addr : Int) : Option SourceInstruction :=
  program.instructions.find? fun entry => (entry.addr : Int) == addr

/-- Of several labels at one address the last is the one that a listing shows. -/
def labelAt? (program : Program) (addr : Nat) : Option Text :=
  (program.labels.reverse.find? (·.2 == addr)).map (·.1)

def listingLine (program : Program) (entry : SourceInstruction) : Text :=
  let label := match program.labelAt? entry.addr with
    | some name => name ++ [':']
    | none => []
  listingMargin entry.addr entry.instruction.byte ++ Text.alignLeft 10 label ++ [' '] ++
    entry.instruction.text

def listing (program : Program) : List Text := program.instructions.map program.listingLine

end Program

namespace Assembly

def Statement.assemble (labels : List (Text × Nat)) (statement : Statement) :
    Except Rejection SourceInstruction :=
  match statement.instruction labels with
  | .ok instruction =>
    .ok ⟨statement.addr, instruction, statement.line, statement.source, statement.body⟩
  | .error complaint =>
    .error ⟨complaint, statement.addr, some (statement.line, statement.source)⟩

/-- Statements are looked at only after the whole source has been laid out. -/
def assemble (source : Text) : Except Rejection Program := do
  let layout ← Layout.ofLines (readLines source)
  if layout.statements.isEmpty then .error ⟨.noInstructions, 0, none⟩
  else do
    let instructions ← layout.statements.mapM (Statement.assemble layout.labels)
    .ok ⟨instructions, layout.labels⟩

end Assembly

end FourBit
