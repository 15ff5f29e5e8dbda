import FourBit.Text.Numeral

namespace FourBit.Assembly.Literal

/-- Four binary digits stand for a nibble, not for a number in the thousands. -/
def isNibble (t : Text) : Bool := t.length == 4 && t.all fun c => c == '0' || c == '1'

def read? (t : Text) : Option Int :=
  let literal := t.trim.map Char.toLower
  if isNibble literal then Numeral.read? .binary literal
  else match literal with
    | '0' :: 'b' :: rest => Numeral.read? .binary rest
    | '0' :: 'x' :: rest => Numeral.read? .hexadecimal rest
    | _ =>
      if !literal.isEmpty && literal.all Text.isDecimalDigit then Numeral.read? .decimal literal
      else none

end FourBit.Assembly.Literal
