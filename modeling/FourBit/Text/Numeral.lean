import FourBit.Text.DecimalDigit

/-! Reading whole numbers: blanks around, a sign, a base mark, digits of any script and single
underscores between digits. -/

namespace FourBit

inductive Base where
  | binary
  | octal
  | decimal
  | hexadecimal
  deriving DecidableEq, Repr

namespace Base

def radix : Base → Nat
  | binary => 2
  | octal => 8
  | decimal => 10
  | hexadecimal => 16

def isMark : Base → Char → Bool
  | binary, c => c == 'b' || c == 'B'
  | octal, c => c == 'o' || c == 'O'
  | decimal, _ => false
  | hexadecimal, c => c == 'x' || c == 'X'

/-- Decimal numerals are read up to 4300 digits; the other bases have no bound. -/
def admits : Base → Nat → Bool
  | decimal, count => count ≤ 4300
  | _, _ => true

end Base

namespace Numeral

/-- Blanks beyond the seven-bit characters count as spaces and digits of other scripts as their
values. -/
def plainChar (c : Char) : Char :=
  if c.toNat < 128 then c
  else if Text.isBlank c then ' '
  else match Text.decimalValue? c with
    | some value => Char.ofNat (48 + value)
    | none => c

/-- What may surround a number: of the seven-bit blanks, not the four separators. -/
def isMargin (c : Char) : Bool := c == ' ' || (9 ≤ c.toNat && c.toNat ≤ 13)

def trimMargin (t : Text) : Text :=
  ((t.dropWhile isMargin).reverse.dropWhile isMargin).reverse

def digitValue? (radix : Nat) (c : Char) : Option Nat :=
  let n := c.toNat
  let value? :=
    if 48 ≤ n ∧ n ≤ 57 then some (n - 48)
    else if 97 ≤ n ∧ n ≤ 102 then some (n - 87)
    else if 65 ≤ n ∧ n ≤ 70 then some (n - 55)
    else none
  value?.filter (· < radix)

/-- The digits of a numeral, most significant first. An underscore stands between two digits only;
`afterDigit` tells whether the character before was a digit. -/
def digits? (radix : Nat) (afterDigit : Bool) : Text → Option (List Nat)
  | [] => if afterDigit then some [] else none
  | c :: rest =>
    if c = '_' then
      if afterDigit then digits? radix false rest else none
    else match digitValue? radix c with
      | some value => (digits? radix true rest).map (value :: ·)
      | none => none

def ofDigits (radix : Nat) (values : List Nat) : Nat :=
  values.foldl (fun number value => number * radix + value) 0

def magnitude? (base : Base) (t : Text) : Option Nat :=
  match digits? base.radix false t with
  | some values => if base.admits values.length then some (ofDigits base.radix values) else none
  | none => none

def dropUnderscore : Text → Text
  | '_' :: rest => rest
  | t => t

def dropMark (base : Base) : Text → Text
  | '0' :: mark :: rest =>
    if base.isMark mark then dropUnderscore rest else '0' :: mark :: rest
  | t => t

def unsigned? (base : Base) (t : Text) : Option Nat := magnitude? base (dropMark base t)

/-- A number whose mark decides the base. Without one it is decimal, and then only zero may begin
with a zero. -/
def marked? : Text → Option Nat
  | '0' :: mark :: rest =>
    if Base.binary.isMark mark then unsigned? .binary ('0' :: mark :: rest)
    else if Base.octal.isMark mark then unsigned? .octal ('0' :: mark :: rest)
    else if Base.hexadecimal.isMark mark then unsigned? .hexadecimal ('0' :: mark :: rest)
    else (magnitude? .decimal ('0' :: mark :: rest)).filter (· == 0)
  | t => magnitude? .decimal t

def signed? (read? : Text → Option Nat) : Text → Option Int
  | '+' :: rest => (read? rest).map Int.ofNat
  | '-' :: rest => (read? rest).map fun n => -(n : Int)
  | t => (read? t).map Int.ofNat

def read? (base : Base) (t : Text) : Option Int :=
  signed? (unsigned? base) (trimMargin (t.map plainChar))

def readMarked? (t : Text) : Option Int := signed? marked? (trimMargin (t.map plainChar))

end Numeral

end FourBit
