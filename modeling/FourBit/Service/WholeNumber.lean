import FourBit.Service.Violation
import FourBit.Text.Numeral

/-! Whole numbers in requests that are not written as such: in a text, or as a numeral with a point
or an exponent. -/

namespace FourBit.Service.WholeNumber

def maxLength : Nat := 4300

def ofDigits (digits : Text) : Nat := Numeral.ofDigits 10 (digits.map fun c => c.toNat - 48)

def withSign (negative : Bool) (n : Nat) : Int := if negative then -(n : Int) else n

def splitMinus : Text → Bool × Text
  | '-' :: rest => (true, rest)
  | t => (false, t)

/-- The plain form: digits behind at most a minus, and no zero before other digits. Too many digits
are refused whatever follows them. -/
def plain (t : Text) : Except Rule Int :=
  let (negative, body) := splitMinus t
  match body.takeWhile Char.isDigit with
  | [] => .error .intText
  | '0' :: _ => if body = ['0'] then .ok 0 else .error .intText
  | digits =>
    if maxLength < digits.length + negative.toNat then .error .intSize
    else if digits.length = body.length then .ok (withSign negative (ofDigits digits))
    else .error .intText

def isMargin (c : Char) : Bool := Text.isBlank c && !(28 ≤ c.toNat && c.toNat ≤ 31)

def trimMargin (t : Text) : Text := ((t.dropWhile isMargin).reverse.dropWhile isMargin).reverse

/-- Goes on behind zeros and underscores. The character before a point stays, and so does the last
one of a text that holds nothing else. -/
def dropZerosAfter (last : Char) : Text → Option Text
  | [] => some [last]
  | c :: rest =>
    if c = '0' || c = '_' then dropZerosAfter c rest
    else if c = '.' then some (last :: c :: rest)
    else if c.isDigit || c = '-' then some (c :: rest)
    else none

def dropZeros : Text → Option Text
  | [] => none
  | c :: rest =>
    if c = '0' then dropZerosAfter c rest
    else if c.isDigit then some (c :: rest)
    else none

def dropFraction (t : Text) : Text :=
  match t.dropWhile (· != '.') with
  | _ :: '0' :: zeros => if zeros.all (· == '0') then t.takeWhile (· != '.') else t
  | _ => t

def hasDouble : Text → Bool
  | '_' :: '_' :: _ => true
  | _ :: rest => hasDouble rest
  | [] => false

def dropUnderscores (t : Text) : Text :=
  if t.head? = some '_' || t.getLast? = some '_' || hasDouble t then t
  else t.filter (· != '_')

def cleaned (t : Text) : Option Text :=
  let body := trimMargin t
  match body with
  | '-' :: rest => (dropZeros rest).map fun digits => '-' :: dropUnderscores (dropFraction digits)
  | '+' :: rest => (dropZeros rest).map fun digits => dropUnderscores (dropFraction digits)
  | _ => (dropZeros body).map fun digits => dropUnderscores (dropFraction digits)

def ofText (t : Text) : Except Rule Int :=
  match plain t with
  | .ok value => .ok value
  | .error .intText =>
    match cleaned t with
    | some body => plain body
    | none => .error .intText
  | .error rule => .error rule

def nearest53 (n : Nat) : Nat :=
  let unit := 1 <<< (n.log2 - 52)
  let below := n / unit
  let rest := n % unit
  if unit < 2 * rest || (unit == 2 * rest && below % 2 == 1) then (below + 1) * unit
  else below * unit

def splitDigits (numeral : Text) : Option (Text × Text) :=
  let mantissa := numeral.takeWhile (· != 'e')
  let whole := mantissa.takeWhile (· != '.')
  let fraction := (mantissa.dropWhile (· != '.')).drop 1
  match numeral.dropWhile (· != 'e') with
  | [] => some (whole, fraction)
  | _ :: exponent =>
    match Numeral.read? .decimal exponent with
    | some (.ofNat shift) =>
      let filled := fraction.rightpad shift '0'
      some (whole ++ filled.take shift, filled.drop shift)
    | _ => none

/-- Numerals stand for numbers of 53 bits, and those of 64 bits and more are refused. A numeral
without digits is not finite. -/
def ofNumeral (numeral : Text) : Except Rule Int :=
  let (negative, body) := splitMinus numeral
  if body.any Char.isDigit then
    match splitDigits body with
    | none => .error .wholeNumber
    | some (whole, fraction) =>
      if fraction.all (· == '0') then
        let magnitude := nearest53 (ofDigits whole)
        if magnitude < 0x8000000000000000 then .ok (withSign negative magnitude) else .error .intSize
      else .error .wholeNumber
  else .error .finite

end FourBit.Service.WholeNumber
