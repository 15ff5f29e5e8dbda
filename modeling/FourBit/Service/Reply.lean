import FourBit.Rom.Listing
import FourBit.Run.Basic
import FourBit.Service.Request

namespace FourBit.Service

inductive Reply where
  | ran (result : RunResult)
  | assembled (program : Program) (rom : Rom)
  | unassembled (fault : Fault)
  | refused (detail : Text)
  | invalid (violations : List Violation)
  deriving Repr

def Reply.status : Reply → Nat
  | refused _ => 400
  | invalid _ => 422
  | _ => 200

def maxProgramSize : Nat := 4096

def fits (program : Text) : Bool := program.length ≤ maxProgramSize

def tooLong : Reply :=
  .refused ("Program size exceeds limit of ".toList ++ Text.decimal maxProgramSize ++
    " bytes".toList)

def badSample (sample : Datum) : Except Failure Reply :=
  if sample.isShown then
    .ok (.refused ("Input sample out of 4-bit range: ".toList ++ sample.quoted))
  else .error (.breach .longNumber)

def RunRequest.badSample? (request : RunRequest) : Option Datum :=
  request.options.inputs.find? (·.nibble?.isNone)

def RunRequest.reply (request : RunRequest) : Except Failure Reply :=
  if fits request.program then
    match request.badSample? with
    | some sample => badSample sample
    | none => (runProgram request.program none none request.options).map .ran
  else .ok tooLong

def replyToProgram (program : Text) : Except Failure Reply :=
  if fits program then
    match Assembly.assemble program with
    | .error rejection =>
      match rejection.failure with
      | .fault fault => .ok (.unassembled fault)
      | .breach breach => .error (.breach breach)
    | .ok program =>
      match program.rom with
      | .ok rom => .ok (.assembled program rom)
      | .error misfit => .error misfit.failure
  else .ok tooLong

/-- What reads the bodies of requests, or finds what is wrong with them. -/
structure Validator where
  runRequest : Datum → Checked RunRequest
  program : Datum → Checked Text

namespace Validator

def run (validator : Validator) (body : Datum) : Except Failure Reply :=
  match validator.runRequest body with
  | .error violations => .ok (.invalid (Violation.sort violations))
  | .ok request => request.reply

def assemble (validator : Validator) (body : Datum) : Except Failure Reply :=
  match validator.program body with
  | .error violations => .ok (.invalid (Violation.sort violations))
  | .ok program => replyToProgram program

def lenient : Validator := ⟨RunRequest.ofBody, programOfBody⟩

end Validator

def run : Datum → Except Failure Reply := Validator.lenient.run

def assemble : Datum → Except Failure Reply := Validator.lenient.assemble

end FourBit.Service
