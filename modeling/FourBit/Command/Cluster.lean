import FourBit.Command.Word

namespace FourBit.Command

structure Cluster where
  switches : List Flag
  valued? : Option (Flag × Option Text)
  deriving DecidableEq, Repr

namespace Cluster

/-- The letters behind a switch are options too, and whatever follows one that takes a value is the
value. -/
def readLetters (switch : Flag) : Text → Except Refusal Cluster
  | [] => .ok ⟨[switch], none⟩
  | letter :: rest =>
    match Flag.ofSpelling? ['-', letter] with
    | none => .error (.needlessValue switch (letter :: rest))
    | some flag =>
      if flag.takesValue then
        .ok ⟨[switch], some (flag, if rest.isEmpty then none else some rest)⟩
      else match readLetters flag rest with
        | .ok cluster => .ok { cluster with switches := switch :: cluster.switches }
        | .error refusal => .error refusal

def read (flag : Flag) (short : Bool) (value? : Option Text) : Except Refusal Cluster :=
  if flag.takesValue then .ok ⟨[], some (flag, value?)⟩
  else match value? with
    | none => .ok ⟨[flag], none⟩
    | some value =>
      if short && !value.isEmpty then readLetters flag value
      else .error (.needlessValue flag value)

end Cluster

end FourBit.Command
