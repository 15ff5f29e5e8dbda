import FourBit.Datum
import FourBit.Machine.Cpu

/-! The ports of the machine and the devices behind them. -/

namespace FourBit

abbrev Supplier := Nat → Except Failure Datum

abbrev Sink := List Int → Option Failure

/-- Gives the samples in order and then the last one for ever; without samples it gives zero. -/
def Supplier.replay (samples : List (Except Failure Datum)) : Supplier := fun asked =>
  match samples[min asked (samples.length - 1)]? with
  | some sample => sample
  | none => .ok (.int 0)

structure Devices where
  supplier : Supplier
  sink? : Option Sink

/-- The ports between steps: the questions asked, the last values in and out, the values written and
the values that the sink was given, the newest first. -/
structure Ports where
  asked : Nat
  lastIn : Option Int
  lastOut : Option Int
  written : List Int
  heard : List Int
  deriving DecidableEq, Repr

namespace Ports

def start : Ports := ⟨0, none, none, [], []⟩

def outputs (ports : Ports) : List Int := ports.written.reverse

def clear (ports : Ports) : Ports := { ports with lastIn := none, lastOut := none }

def sampleFault (sample : Datum) : Fault :=
  .plain .inputOutOfRange ("Input port sample out of 4-bit range: " ++ sample.quoted.asString)

def sampleFailure (sample : Datum) : Failure := .showing sample (sampleFault sample)

def read (supplier : Supplier) (ports : Ports) : Ports × Except Failure Int :=
  let waiting := { ports with asked := ports.asked + 1, lastIn := none }
  match supplier ports.asked with
  | .error failure => (waiting, .error failure)
  | .ok sample => match sample.nibble? with
    | some value => ({ waiting with lastIn := some (value : Int) }, .ok value)
    | none => (waiting, .error (sampleFailure sample))

/-- The value is recorded before the sink sees it, and stays if the sink refuses it. -/
def write (sink? : Option Sink) (value : Int) (ports : Ports) : Ports × Option Failure :=
  let latched :=
    { ports with lastOut := some (nibble value), written := nibble value :: ports.written }
  match sink? with
  | none => (latched, none)
  | some sink =>
    let heard := nibble value :: ports.heard
    ({ latched with heard := heard }, sink heard)

end Ports

end FourBit
