import FourBit.Proofs.Reference.Language

/-! Labels as notation: what is left of a source when jumps to labels are given addresses and the
definitions of the labels are taken away. -/

namespace FourBit.Reference

open Assembly (isSeparator)

structure Paired (lead first gap second trail : Text) : Prop where
  lead : ∀ c ∈ lead, isSeparator c = true
  first_present : first ≠ []
  first_solid : ∀ c ∈ first, isSeparator c = false
  gap_present : gap ≠ []
  gap : ∀ c ∈ gap, isSeparator c = true
  second_present : second ≠ []
  second_solid : ∀ c ∈ second, isSeparator c = false
  trail : ∀ c ∈ trail, isSeparator c = true

def IsJump (word : Text) : Prop := word.upper = "JMP".toList ∨ word.upper = "JNC".toList

instance (word : Text) : Decidable (IsJump word) := inferInstanceAs (Decidable (_ ∨ _))

/-- The words of a jump whose operand is the name of a label, in any case. -/
def RefersTo (labels : List (Text × Nat)) (words : List Text) (addr : Nat) : Prop :=
  ∃ word target, words = [word, target] ∧ IsJump word ∧ (target.upper, addr) ∈ labels

/-- The operand of a jump to a label becomes the decimal text of its address, and no other statement
is touched. -/
inductive Numbered (labels : List (Text × Nat)) : Text → Text → Prop
  | jump (lead word gap target trail : Text) (addr : Nat)
      (paired : Paired lead word gap target trail) (refers : RefersTo labels [word, target] addr) :
      Numbered labels (lead ++ word ++ gap ++ target ++ trail)
        (lead ++ word ++ gap ++ Text.decimal addr ++ trail)
  | other (body : Text) (words : List Text) (spaced : Spaced body words)
      (free : ∀ addr, ¬ RefersTo labels words addr) : Numbered labels body body

/-- What is left of a line: its definition of a label goes, and the whole line may go if it has no
statement. -/
inductive Unlabelled (labels : List (Text × Nat)) : Text → List Text → Prop
  | plain (code comment left : Text) (cut : Uncommented (code ++ comment) code)
      (free : Labelled code none code) (numbered : Numbered labels code left) :
      Unlabelled labels (code ++ comment) [left ++ comment]
  | label (margin name body comment left : Text) (blank : ∀ c ∈ margin, Text.isBlank c = true)
      (named : IsName name)
      (cut : Uncommented (margin ++ name ++ ':' :: body ++ comment) (margin ++ name ++ ':' :: body))
      (numbered : Numbered labels body left) :
      Unlabelled labels (margin ++ name ++ ':' :: body ++ comment) [margin ++ left ++ comment]
  | alone (margin name body comment : Text) (blank : ∀ c ∈ margin, Text.isBlank c = true)
      (named : IsName name)
      (cut : Uncommented (margin ++ name ++ ':' :: body ++ comment) (margin ++ name ++ ':' :: body))
      (empty : ∀ c ∈ body, Text.isBlank c = true) :
      Unlabelled labels (margin ++ name ++ ':' :: body ++ comment) []

def LabelFree (labels : List (Text × Nat)) (source plain : Text) : Prop :=
  ∃ kept, List.Forall₂ (Unlabelled labels) (Text.lines source) kept ∧
    plain = Text.unlines kept.flatten

end FourBit.Reference
