import FourBit.Run.Options
import FourBit.Run.Result

/-! The machine as its specification puts it: plain numbers, sums cut at sixteen, and one table of
steps by the high half of a word. Nothing here is built from the parts of the emulator. -/

namespace FourBit.Reference

structure State where
  a : Nat
  b : Nat
  carry : Nat
  pc : Nat
  input : Nat
  output : Nat
  deriving DecidableEq, Repr

namespace State

def zero : State := ⟨0, 0, 0, 0, 0, 0⟩

def onward (s : State) : State := { s with pc := (s.pc + 1) % 16 }

/-- The step of an operation code with its operand; four codes have none. The sample is what stands
at the input port. -/
def act (code operand sample : Nat) (s : State) : Option State :=
  match code with
  | 0 => some { s with a := (s.a + operand) % 16,
                       carry := if 15 < s.a + operand then 1 else 0 }.onward
  | 1 => some { s with a := s.b }.onward
  | 2 => some { s with a := sample, input := sample }.onward
  | 3 => some { s with a := operand }.onward
  | 4 => some { s with b := s.a }.onward
  | 5 => some { s with b := (s.b + operand) % 16,
                       carry := if 15 < s.b + operand then 1 else 0 }.onward
  | 6 => some { s with b := sample, input := sample }.onward
  | 7 => some { s with b := operand }.onward
  | 9 => some { s with output := s.b }.onward
  | 11 => some { s with output := operand }.onward
  | 14 => some (if s.carry = 0 then { s with pc := operand } else s.onward)
  | 15 => some { s with pc := operand }
  | _ => none

end State

structure Config where
  state : State
  taken : Nat
  written : List Nat
  deriving DecidableEq, Repr

namespace Config

def zero : Config := ⟨.zero, 0, []⟩

def word (words : List Nat) (c : Config) : Nat := words.getD c.state.pc 0

def sample (samples : List Nat) (c : Config) : Nat := samples.getD c.taken (samples.getLastD 0)

def step (words samples : List Nat) (c : Config) : Option Config :=
  let code := c.word words / 16
  (State.act code (c.word words % 16) (c.sample samples) c.state).map fun next =>
    ⟨next, if code = 2 ∨ code = 6 then c.taken + 1 else c.taken,
      if code = 9 ∨ code = 11 then c.written ++ [next.output] else c.written⟩

def jumpsToItself (words : List Nat) (c : Config) : Prop :=
  c.word words % 16 = c.state.pc ∧
    (c.word words / 16 = 15 ∨ (c.word words / 16 = 14 ∧ c.state.carry = 0))

instance (words : List Nat) (c : Config) : Decidable (c.jumpsToItself words) :=
  inferInstanceAs (Decidable (_ ∧ _))

end Config

structure Verdict where
  config : Config
  steps : Nat
  stop : StopReason
  deriving DecidableEq, Repr

/-- A policy that looks for a jump to itself takes a spent budget for an error. -/
def spentReason : HaltPolicy → StopReason
  | .selfLoop => .error
  | .stepBudget => .stepBudget

/-- Steps on from a configuration: until a word has no step, until a taken jump to itself has been
executed if the policy looks for one, or until the budget is spent. -/
def resume (words samples : List Nat) (policy : HaltPolicy) : Nat → Nat → Config → Verdict
  | 0, steps, c => ⟨c, steps, spentReason policy⟩
  | budget + 1, steps, c =>
    match c.step words samples with
    | none => ⟨c, steps, .error⟩
    | some next =>
      if policy = .selfLoop ∧ c.jumpsToItself words then ⟨next, steps + 1, .halt⟩
      else resume words samples policy budget (steps + 1) next

def run (words samples : List Nat) (policy : HaltPolicy) (budget : Nat) : Verdict :=
  resume words samples policy budget 0 .zero

section Resumption

variable (words samples : List Nat) (policy : HaltPolicy) (budget steps : Nat) (c next : Config)

theorem resume_stuck (stuck : c.step words samples = none) :
    resume words samples policy (budget + 1) steps c = ⟨c, steps, .error⟩ := by
  simp only [resume, stuck]

theorem resume_jump (stepped : c.step words samples = some next)
    (ends : policy = .selfLoop ∧ c.jumpsToItself words) :
    resume words samples policy (budget + 1) steps c = ⟨next, steps + 1, .halt⟩ := by
  simp only [resume, stepped, ends, and_self, if_true]

theorem resume_onward (stepped : c.step words samples = some next)
    (free : ¬ (policy = .selfLoop ∧ c.jumpsToItself words)) :
    resume words samples policy (budget + 1) steps c =
      resume words samples policy budget (steps + 1) next := by
  simp only [resume, stepped, free, if_false]

end Resumption

end FourBit.Reference
