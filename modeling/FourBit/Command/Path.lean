import FourBit.Text.Basic

namespace FourBit.Command

structure Path where
  root : Text
  parts : List Text
  deriving DecidableEq, Repr

namespace Path

/-- Exactly two slashes at the beginning are a root of their own, any other number counts as one. -/
def rootOf (t : Text) : Text :=
  match (t.takeWhile (· == '/')).length with
  | 0 => []
  | 2 => ['/', '/']
  | _ => ['/']

def ofText (t : Text) : Path :=
  ⟨rootOf t, (t.splitOnP (· == '/')).filter fun part => !part.isEmpty && part != ['.']⟩

def text (path : Path) : Text :=
  match path.root ++ List.intercalate ['/'] path.parts with
  | [] => ['.']
  | t => t

def hasNul (path : Path) : Bool := path.text.contains '\x00'

end Path

end FourBit.Command
