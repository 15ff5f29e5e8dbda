import FourBit.Proofs.Reference.Language

/-! The looks of a source: remarks, white space, the gaps between words, the case of letters and the
ends of lines. -/

namespace FourBit.Reference

open Assembly (isSeparator)

/-- What a line may be changed to without changing what it says. -/
inductive LineRestyled : Text → Text → Prop
  | remark (line words : Text) (mark : Char) (marks : mark = ';' ∨ mark = '#') :
      LineRestyled line (line ++ mark :: words)
  | indent (margin line : Text) (blank : ∀ c ∈ margin, Text.isBlank c = true) :
      LineRestyled line (margin ++ line)
  | trail (line margin : Text) (blank : ∀ c ∈ margin, Text.isBlank c = true) :
      LineRestyled line (line ++ margin)
  -- A comment is no word, so that no gap between words stands before one.
  | respace (front old new back : Text) (ends : ∃ c ∈ front.getLast?, isSeparator c = false)
      (begins : ∃ c ∈ back.head?, isSeparator c = false) (old_present : old ≠ [])
      (old_gap : ∀ c ∈ old, isSeparator c = true) (new_present : new ≠ [])
      (new_gap : ∀ c ∈ new, isSeparator c = true)
      (word : (∀ c ∈ back.head?, c ≠ ';' ∧ c ≠ '#') ∨ ∃ c ∈ front, c = ';' ∨ c = '#') :
      LineRestyled (front ++ old ++ back) (front ++ new ++ back)

/-- One change of the looks of a source. Lines that come or change are lines: there is no line feed
in them. -/
inductive Restyled (source other : Text) : Prop
  | line (above below : List Text) (before after : Text)
      (given : Text.lines source = above ++ before :: below)
      (made : Text.lines other = above ++ after :: below) (restyled : LineRestyled before after)
  | insert (above below : List Text) (line code : Text) (cut : Uncommented line code)
      (blank : ∀ c ∈ code, Text.isBlank c = true) (given : Text.lines source = above ++ below)
      (made : Text.lines other = above ++ line :: below)
  | recase (same : source.map Char.toLower = other.map Char.toLower)
  | feed (front back : Text) (given : source = front ++ '\n' :: back)
      (made : other = front ++ '\r' :: '\n' :: back)

end FourBit.Reference
