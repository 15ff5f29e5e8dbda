import FourBit.Datum
import FourBit.Fault

namespace FourBit

/-- Whether a jump to itself ends a run, or only the budget does. -/
inductive HaltPolicy where
  | selfLoop
  | stepBudget
  deriving DecidableEq, Repr

namespace HaltPolicy

def name : HaltPolicy → String
  | selfLoop => "self_loop"
  | stepBudget => "step_budget"

def all : List HaltPolicy := [selfLoop, stepBudget]

def ofName? (name : String) : Option HaltPolicy := all.find? (·.name == name)

end HaltPolicy

structure RunOptions where
  maxSteps : Nat
  positive : 0 < maxSteps
  policy : HaltPolicy
  trace : Bool
  inputs : List Datum
  deriving Repr

namespace RunOptions

theorem toNat_positive {n : Int} (enough : 1 ≤ n) : 0 < n.toNat := by omega

def standard : RunOptions := ⟨1000, by decide, .selfLoop, true, []⟩

def ofFields (maxSteps : Int) (policy : String) (trace : Bool) (inputs : List Datum) :
    Except Breach RunOptions :=
  match HaltPolicy.ofName? policy with
  | none => .error (.unknownPolicy policy)
  | some policy =>
    if enough : 1 ≤ maxSteps then .ok ⟨maxSteps.toNat, toNat_positive enough, policy, trace, inputs⟩
    else .error .tooFewSteps

end RunOptions

end FourBit
