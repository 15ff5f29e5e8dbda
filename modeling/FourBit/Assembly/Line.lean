import FourBit.Text.UpperCase

namespace FourBit.Assembly

structure Line where
  number : Nat
  source : Text
  label? : Option Text
  body : Text
  deriving DecidableEq, Repr

namespace Line

def withoutComment (t : Text) : Text := t.takeWhile fun c => c != ';' && c != '#'

def isNameStart (c : Char) : Bool := c.isAlpha || c == '_'

def isNamePart (c : Char) : Bool := c.isAlphanum || c == '_'

def splitLabel? : Text → Option (Text × Text)
  | [] => none
  | c :: rest =>
    if isNameStart c then
      match rest.dropWhile isNamePart with
      | ':' :: after => some (c :: rest.takeWhile isNamePart, after)
      | _ => none
    else none

/-- Names of labels count in upper case. A line without a statement has an empty body. -/
def read (number : Nat) (raw : Text) : Line :=
  let code := (withoutComment raw).trim
  match splitLabel? code with
  | some (name, rest) => ⟨number, raw.trim, some name.upper, Text.trim rest⟩
  | none => ⟨number, raw.trim, none, code⟩

end Line

def readLines (source : Text) : List Line :=
  (Text.lines source).zipIdx.map fun (raw, index) => Line.read (index + 1) raw

end FourBit.Assembly
