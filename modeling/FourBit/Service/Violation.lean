import FourBit.Text.Basic

namespace FourBit.Service

inductive Rule where
  | missing
  | text
  | list
  | record
  | int
  | intText
  | intSize
  | wholeNumber
  | finite
  | truth
  | truthText
  | choice
  | atLeast
  | atMost
  deriving DecidableEq, Repr

def Rule.name : Rule → Text
  | missing => "missing".toList
  | text => "string_type".toList
  | list => "list_type".toList
  | record => "model_attributes_type".toList
  | int => "int_type".toList
  | intText => "int_parsing".toList
  | intSize => "int_parsing_size".toList
  | wholeNumber => "int_from_float".toList
  | finite => "finite_number".toList
  | truth => "bool_type".toList
  | truthText => "bool_parsing".toList
  | choice => "literal_error".toList
  | atLeast => "greater_than_equal".toList
  | atMost => "less_than_equal".toList

structure Violation where
  location : List Text
  rule : Rule
  deriving DecidableEq, Repr

namespace Violation

def textBefore (left right : Text) : Bool := List.lex left right fun c d => c.toNat < d.toNat

def locationBefore (left right : List Text) : Bool := List.lex left right textBefore

def before (left right : Violation) : Bool :=
  locationBefore left.location right.location ||
    (left.location == right.location && textBefore left.rule.name right.rule.name)

def sort (violations : List Violation) : List Violation :=
  violations.mergeSort fun left right => !right.before left

end Violation

abbrev Checked (α : Type) := Except (List Violation) α

namespace Checked

def broken {α : Type} (location : List Text) (rule : Rule) : Checked α := .error [⟨location, rule⟩]

def both {α β : Type} : Checked α → Checked β → Checked (α × β)
  | .ok a, .ok b => .ok (a, b)
  | .ok _, .error violations => .error violations
  | .error violations, .ok _ => .error violations
  | .error first, .error second => .error (first ++ second)

end Checked

end FourBit.Service
