import FourBit.Datum
import FourBit.Service.WholeNumber

namespace FourBit.Service

abbrev Location := List Text

def Location.below (location : Location) (name : Text) : Location := location ++ [name]

namespace Field

def find? (fields : List (Text × Datum)) (name : String) : Option Datum :=
  fields.lookup name.toList

def text (location : Location) : Datum → Checked Text
  | .text value => .ok value
  | _ => .broken location .text

def ofWhole (location : Location) : Except Rule Int → Checked Int
  | .ok value => .ok value
  | .error rule => .broken location rule

def int (location : Location) : Datum → Checked Int
  | .int value => .ok value
  | .truth value => .ok (if value then 1 else 0)
  | .real numeral => ofWhole location (WholeNumber.ofNumeral numeral)
  | .text t => ofWhole location (WholeNumber.ofText t)
  | _ => .broken location .int

def intBetween (least greatest : Int) (location : Location) (datum : Datum) : Checked Int :=
  match int location datum with
  | .error violations => .error violations
  | .ok value =>
    if value < least then .broken location .atLeast
    else if greatest < value then .broken location .atMost
    else .ok value

def trueWords : List Text := ["1", "on", "t", "true", "y", "yes"].map String.toList

def falseWords : List Text := ["0", "off", "f", "false", "n", "no"].map String.toList

def truthOfNumber (location : Location) (value : Int) : Checked Bool :=
  if value = 1 then .ok true
  else if value = 0 then .ok false
  else if -0x8000000000000000 ≤ value ∧ value < 0x8000000000000000 then .broken location .truthText
  else .broken location .truth

def truth (location : Location) : Datum → Checked Bool
  | .truth value => .ok value
  | .int value => truthOfNumber location value
  | .real numeral =>
    match WholeNumber.ofNumeral numeral with
    | .ok value => truthOfNumber location value
    | .error _ => .broken location .truth
  | .text t =>
    let word := t.map Char.toLower
    if trueWords.contains word then .ok true
    else if falseWords.contains word then .ok false
    else .broken location .truthText
  | _ => .broken location .truth

def ints (location : Location) : Datum → Checked (List Int)
  | .list items =>
    items.zipIdx.foldr (fun (item, index) rest =>
      (Checked.both (int (location.below (Text.decimal index)) item) rest).map fun (value, values) =>
        value :: values) (.ok [])
  | _ => .broken location .list

end Field

end FourBit.Service
