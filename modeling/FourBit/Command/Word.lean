import FourBit.Command.Refusal
import FourBit.Text.DecimalDigit

/-! The words of a command line: which are options, and which are plain. -/

namespace FourBit.Command

inductive Word where
  | plain (text : Text)
  | terminator
  | unknown (text : Text)
  | option (flag : Flag) (short : Bool) (value? : Option Text)
  deriving DecidableEq, Repr

namespace Word

def isShort (spelling : Text) : Bool := (spelling.drop 1).head? != some '-'

def splitValue (t : Text) : Text × Option Text :=
  match t.dropWhile (· != '=') with
  | [] => (t, none)
  | _ :: value => (t.takeWhile (· != '='), some value)

/-- A minus, digits of any script and at most one point with a digit behind it. A line feed may end
it. -/
def isNegativeNumber (t : Text) : Bool :=
  let body := if t.getLast? = some '\n' then t.dropLast else t
  match body with
  | '-' :: digits =>
    match digits.dropWhile Text.isDecimalDigit with
    | [] => !digits.isEmpty
    | '.' :: fraction => !fraction.isEmpty && fraction.all Text.isDecimalDigit
    | _ => false
  | _ => false

/-- The spellings that a word may stand for: of two dashes any that it begins, of one dash the
letter behind it, whose value follows at once. -/
def candidates (t : Text) : List (Text × Flag × Option Text) :=
  if isShort t then
    (Flag.table.filter (·.1 == t.take 2)).map fun (spelling, flag) =>
      (spelling, flag, some (t.drop 2))
  else
    let (beginning, value?) := splitValue t
    (Flag.table.filter fun entry => beginning.isPrefixOf entry.1).map fun (spelling, flag) =>
      (spelling, flag, value?)

/-- A word with a dash that no spelling explains is plain if it is a negative number or holds a
space. -/
def unexplained (t : Text) : Word :=
  if isNegativeNumber t || t.contains ' ' then .plain t else .unknown t

def dashed (t : Text) : Except Refusal Word :=
  match Flag.ofSpelling? t with
  | some flag => .ok (.option flag (isShort t) none)
  | none =>
    match splitValue t with
    | (spelling, some value) =>
      match Flag.ofSpelling? spelling with
      | some flag => .ok (.option flag (isShort spelling) (some value))
      | none => abbreviated t
    | (_, none) => abbreviated t
where
  abbreviated (t : Text) : Except Refusal Word :=
    match candidates t with
    | [] => .ok (unexplained t)
    | [(spelling, flag, value?)] => .ok (.option flag (isShort spelling) value?)
    | several => .error (.ambiguous t (several.map (·.1)))

def read (t : Text) : Except Refusal Word :=
  match t with
  | '-' :: _ :: _ => dashed t
  | _ => .ok (.plain t)

/-- Behind the first terminator every word is plain. -/
def readAll : List Text → Except Refusal (List Word)
  | [] => .ok []
  | t :: rest =>
    if t = ['-', '-'] then .ok (.terminator :: rest.map .plain)
    else do
      let word ← read t
      let words ← readAll rest
      .ok (word :: words)

end Word

end FourBit.Command
