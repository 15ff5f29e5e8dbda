import FourBit.Text.Printable

namespace FourBit.Text

def quoteFor (t : Text) : Char :=
  if t.contains '\'' && !t.contains '"' then '"' else '\''

def smallHex (width n : Nat) : Text := (Nat.toDigits 16 n).leftpad width '0'

def escapeChar (quote c : Char) : Text :=
  if c = quote || c = '\\' then ['\\', c]
  else if c = '\n' then ['\\', 'n']
  else if c = '\r' then ['\\', 'r']
  else if c = '\t' then ['\\', 't']
  else if isPrintable c then [c]
  else if c.toNat < 0x100 then '\\' :: 'x' :: smallHex 2 c.toNat
  else if c.toNat < 0x10000 then '\\' :: 'u' :: smallHex 4 c.toNat
  else '\\' :: 'U' :: smallHex 8 c.toNat

def quoted (t : Text) : Text :=
  let quote := quoteFor t
  quote :: t.flatMap (escapeChar quote) ++ [quote]

end FourBit.Text
