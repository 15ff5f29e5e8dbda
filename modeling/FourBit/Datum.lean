import FourBit.Text.Quoted
import FourBit.Width

namespace FourBit

inductive Datum where
  | none
  | truth (value : Bool)
  | int (value : Int)
  | real (numeral : Text)
  | text (value : Text)
  | list (items : List Datum)
  | record (fields : List (Text × Datum))
  deriving BEq, Inhabited, Repr

namespace Datum

private def commaSeparated (pieces : List Text) : Text := (pieces.intersperse [',', ' ']).flatten

mutual

def quoted : Datum → Text
  | none => "None".toList
  | truth true => "True".toList
  | truth false => "False".toList
  | int value => Text.decimal value
  | real numeral => numeral
  | text value => Text.quoted value
  | list items => '[' :: commaSeparated (quotedItems items) ++ [']']
  | record fields => '\x7b' :: commaSeparated (quotedFields fields) ++ ['\x7d']

def quotedItems : List Datum → List Text
  | [] => []
  | item :: rest => quoted item :: quotedItems rest

def quotedFields : List (Text × Datum) → List Text
  | [] => []
  | (name, value) :: rest =>
    (Text.quoted name ++ [':', ' '] ++ quoted value) :: quotedFields rest

end

def maxDigits : Nat := 4300

mutual

/-- Whether a message can show a value: not if there is a number in it that is too long. -/
def isShown : Datum → Bool
  | int value => (Nat.toDigits 10 value.natAbs).length ≤ maxDigits
  | list items => areShown items
  | record fields => fieldsAreShown fields
  | _ => true

def areShown : List Datum → Bool
  | [] => true
  | item :: rest => isShown item && areShown rest

def fieldsAreShown : List (Text × Datum) → Bool
  | [] => true
  | (_, value) :: rest => isShown value && fieldsAreShown rest

end

/-- A whole number of four bits. A truth value is none, although it counts as one elsewhere. -/
def nibble? : Datum → Option (Fin 16)
  | int value => if 0 ≤ value ∧ value ≤ 15 then some (Fin.ofNat 16 value.toNat) else Option.none
  | _ => Option.none

end Datum

end FourBit
