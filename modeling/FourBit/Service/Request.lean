import FourBit.Run.Options
import FourBit.Service.Field

namespace FourBit.Service

def body : Location := ["body".toList]

def maxStepsBound : Int := 100000

structure RunRequest where
  program : Text
  options : RunOptions
  deriving Repr

def required {α : Type} (check : Location → Datum → Checked α) (fields : List (Text × Datum))
    (location : Location) (name : String) : Checked α :=
  match Field.find? fields name with
  | some datum => check (location.below name.toList) datum
  | none => .broken (location.below name.toList) .missing

def optional {α : Type} (check : Location → Datum → Checked α) (standard : α)
    (fields : List (Text × Datum)) (location : Location) (name : String) : Checked α :=
  match Field.find? fields name with
  | some datum => check (location.below name.toList) datum
  | none => .ok standard

structure StepCount where
  value : Nat
  positive : 0 < value
  deriving DecidableEq, Repr

namespace StepCount

def standard : StepCount := ⟨RunOptions.standard.maxSteps, RunOptions.standard.positive⟩

def read (location : Location) (datum : Datum) : Checked StepCount :=
  match Field.intBetween 1 maxStepsBound location datum with
  | .error violations => .error violations
  | .ok value =>
    if enough : 1 ≤ value then .ok ⟨value.toNat, RunOptions.toNat_positive enough⟩
    else .broken location .atLeast

end StepCount

def readPolicy (location : Location) : Datum → Checked HaltPolicy
  | .text name =>
    match HaltPolicy.ofName? name.asString with
    | some policy => .ok policy
    | none => .broken location .choice
  | _ => .broken location .choice

def readOptions (location : Location) : Datum → Checked RunOptions
  | .none => .ok .standard
  | .record fields =>
    (Checked.both (optional StepCount.read .standard fields location "max_steps")
      (Checked.both (optional readPolicy .selfLoop fields location "halt_policy")
        (optional Field.truth true fields location "trace"))).map fun (steps, policy, trace) =>
      ⟨steps.value, steps.positive, policy, trace, []⟩
  | _ => .broken location .record

def bodyFields : Datum → Checked (List (Text × Datum))
  | .record fields => .ok fields
  | .none => .broken body .missing
  | _ => .broken body .record

namespace RunRequest

def ofFields (fields : List (Text × Datum)) : Checked RunRequest :=
  (Checked.both (required Field.text fields body "program")
    (Checked.both (optional Field.ints [] fields body "inputs")
      (optional readOptions .standard fields body "options"))).map fun (program, inputs, options) =>
    ⟨program, { options with inputs := inputs.map .int }⟩

def ofBody (datum : Datum) : Checked RunRequest := bodyFields datum >>= ofFields

end RunRequest

def programOfBody (datum : Datum) : Checked Text :=
  bodyFields datum >>= fun fields => required Field.text fields body "program"

end FourBit.Service
