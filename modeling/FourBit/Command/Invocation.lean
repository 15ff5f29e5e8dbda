import FourBit.Command.Cluster
import FourBit.Datum
import FourBit.Text.Numeral

namespace FourBit.Command

/-- A request to run a file. A count or a policy is absent when the option was given two dashes in
the place of its value, and a sample is then an empty list. -/
structure Invocation where
  program : Text
  image : Bool
  inputs : List Datum
  maxSteps? : Option Int
  policy? : Option HaltPolicy
  listing : Bool
  trace : Bool
  verbosity : Nat
  deriving Repr

namespace Invocation

def standard (program : Text) : Invocation :=
  ⟨program, false, [], some 1000, some .selfLoop, false, false, 0⟩

end Invocation

inductive Dismissal where
  | help
  | refused (refusal : Refusal)
  deriving DecidableEq, Repr

structure Draft where
  program? : Option Text
  invocation : Invocation
  extras : List Text
  deriving Repr

namespace Draft

def empty : Draft := ⟨none, .standard [], []⟩

def addExtra (draft : Draft) (t : Text) : Draft := { draft with extras := draft.extras ++ [t] }

def addPlain (draft : Draft) (t : Text) : Draft :=
  match draft.program? with
  | none => { draft with program? := some t }
  | some _ => draft.addExtra t

def setSwitch (draft : Draft) (flag : Flag) : Except Dismissal Draft :=
  let asked := draft.invocation
  match flag with
  | .help => .error .help
  | .image => .ok { draft with invocation := { asked with image := true } }
  | .listing => .ok { draft with invocation := { asked with listing := true } }
  | .trace => .ok { draft with invocation := { asked with trace := true } }
  | .verbose => .ok { draft with invocation := { asked with verbosity := asked.verbosity + 1 } }
  | _ => .ok draft

def readSample (t : Text) : Except Refusal Datum :=
  match Numeral.readMarked? t with
  | none => .error (.notSample t)
  | some value => if 0 ≤ value ∧ value ≤ 15 then .ok (.int value) else .error (.sampleRange t)

def readCount (t : Text) : Except Refusal Int :=
  match Numeral.read? .decimal t with
  | none => .error (.notCount t)
  | some value => .ok value

def readPolicy (t : Text) : Except Refusal HaltPolicy :=
  match HaltPolicy.ofName? t.asString with
  | none => .error (.notPolicy t)
  | some policy => .ok policy

def struckOut (t : Text) : Bool := t == ['-', '-']

def setValue (draft : Draft) (flag : Flag) (value : Text) : Except Refusal Draft := do
  let asked := draft.invocation
  match flag with
  | .input =>
    let sample ← if struckOut value then .ok (.list []) else readSample value
    .ok { draft with invocation := { asked with inputs := asked.inputs ++ [sample] } }
  | .maxSteps =>
    let count? ← if struckOut value then .ok none else (readCount value).map some
    .ok { draft with invocation := { asked with maxSteps? := count? } }
  | .haltPolicy =>
    let policy? ← if struckOut value then .ok none else (readPolicy value).map some
    .ok { draft with invocation := { asked with policy? := policy? } }
  | _ => .ok draft

def setSwitches (draft : Draft) (switches : List Flag) : Except Dismissal Draft :=
  switches.foldlM setSwitch draft

def setOption (draft : Draft) (flag : Flag) (value : Text) : Except Dismissal Draft :=
  (draft.setValue flag value).mapError .refused

/-- Takes the words in order. The terminator vanishes beside the program and is of no use elsewhere.
-/
def addWords (draft : Draft) : List Word → Except Dismissal Draft
  | [] => .ok draft
  | .plain t :: .terminator :: rest =>
    if draft.program?.isNone then (draft.addPlain t).addWords rest
    else ((draft.addExtra t).addExtra ['-', '-']).addWords rest
  | .plain t :: rest => (draft.addPlain t).addWords rest
  | .terminator :: rest =>
    if draft.program?.isNone && !rest.isEmpty then draft.addWords rest
    else (draft.addExtra ['-', '-']).addWords rest
  | .unknown t :: rest => (draft.addExtra t).addWords rest
  | .option flag short value? :: rest =>
    match Cluster.read flag short value? with
    | .error refusal => .error (.refused refusal)
    | .ok ⟨switches, none⟩ => do
      let draft ← draft.setSwitches switches
      draft.addWords rest
    | .ok ⟨switches, some (last, some value)⟩ => do
      let draft ← draft.setSwitches switches
      let draft ← draft.setOption last value
      draft.addWords rest
    | .ok ⟨switches, some (last, none)⟩ =>
      match rest with
      | .plain value :: rest => do
        let draft ← draft.setSwitches switches
        let draft ← draft.setOption last value
        draft.addWords rest
      | _ => .error (.refused (.missingValue last))

def finish (draft : Draft) : Except Refusal Invocation :=
  match draft.program? with
  | none => .error .missingProgram
  | some program =>
    if draft.extras.isEmpty then .ok { draft.invocation with program := program }
    else .error (.unrecognized draft.extras)

end Draft

def Invocation.ofArguments (arguments : List Text) : Except Dismissal Invocation := do
  let words ← (Word.readAll arguments).mapError .refused
  let draft ← Draft.empty.addWords words
  draft.finish.mapError .refused

end FourBit.Command
