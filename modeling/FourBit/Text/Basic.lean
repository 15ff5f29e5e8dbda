namespace FourBit

abbrev Text := List Char

namespace Text

def asString (t : Text) : String := String.ofList t

def isBlank (c : Char) : Bool :=
  let n := c.toNat
  (9 ≤ n && n ≤ 13) || (28 ≤ n && n ≤ 32) || n == 0x85 || n == 0xA0 || n == 0x1680 ||
    (0x2000 ≤ n && n ≤ 0x200A) || n == 0x2028 || n == 0x2029 || n == 0x202F || n == 0x205F ||
    n == 0x3000

def trimLeft (t : Text) : Text := t.dropWhile isBlank

def trimRight (t : Text) : Text := (t.reverse.dropWhile isBlank).reverse

def trim (t : Text) : Text := trimRight (trimLeft t)

def lines (t : Text) : List Text := t.splitOnP (· == '\n')

def unlines (pieces : List Text) : Text := List.intercalate ['\n'] pieces

/-- Every way of ending a line becomes a line feed: CR LF counts once, and so does a CR alone. -/
def normalizeNewlines : Text → Text
  | '\r' :: '\n' :: rest => '\n' :: normalizeNewlines rest
  | '\r' :: rest => '\n' :: normalizeNewlines rest
  | c :: rest => c :: normalizeNewlines rest
  | [] => []

def decimal (n : Int) : Text :=
  if n < 0 then '-' :: Nat.toDigits 10 n.natAbs else Nat.toDigits 10 n.natAbs

def binary (width n : Nat) : Text := (Nat.toDigits 2 n).leftpad width '0'

def hex (width n : Nat) : Text := ((Nat.toDigits 16 n).map Char.toUpper).leftpad width '0'

def alignRight (width : Nat) (t : Text) : Text := t.leftpad width ' '

def alignLeft (width : Nat) (t : Text) : Text := t.rightpad width ' '

end Text

end FourBit
