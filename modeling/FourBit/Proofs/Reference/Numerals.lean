import Mathlib.Data.Nat.Digits.Defs
import FourBit.Proofs.Reference.Language

/-! Numerals as a grammar: digits of any script with single underscores between them, the mark of a
base before them, a sign before that, and the literals of the assembly language made of these. Texts
are in small letters, and a numeral of none but digits has its value by position. -/

namespace FourBit.Reference

/-- The value of a digit is its place among the sixteen figures, or that of a decimal digit of any
script. -/
def IsDigit (c : Char) (value : Nat) : Prop :=
  "0123456789abcdef".toList[value]? = some c.toLower ∨ Text.decimalValue? c = some value

instance (c : Char) (value : Nat) : Decidable (IsDigit c value) := inferInstanceAs (Decidable (_ ∨ _))

/-- Digits below a radix, most significant first, with no more than one underscore between two of
them. -/
inductive Digits (radix : Nat) : Text → List Nat → Prop
  | last (c : Char) (value : Nat) (digit : IsDigit c value) (below : value < radix) :
      Digits radix [c] [value]
  | next (c : Char) (value : Nat) (rest : Text) (values : List Nat) (digit : IsDigit c value)
      (below : value < radix) (more : Digits radix rest values) :
      Digits radix (c :: rest) (value :: values)
  | gap (c : Char) (value : Nat) (rest : Text) (values : List Nat) (digit : IsDigit c value)
      (below : value < radix) (more : Digits radix rest values) :
      Digits radix (c :: '_' :: rest) (value :: values)

inductive Continues (radix : Nat) : Text → List Nat → Prop
  | done : Continues radix [] []
  | more (t : Text) (values : List Nat) (digits : Digits radix t values) : Continues radix t values
  | gap (t : Text) (values : List Nat) (digits : Digits radix t values) :
      Continues radix ('_' :: t) values

def positional (radix : Nat) (values : List Nat) : Nat := Nat.ofDigits radix values.reverse

inductive Announces (base : Base) : Text → Prop
  | silent : Announces base []
  | mark (zero mark : Char) (null : IsDigit zero 0) (known : base.isMark mark = true) :
      Announces base [zero, mark]
  | gap (zero mark : Char) (null : IsDigit zero 0) (known : base.isMark mark = true) :
      Announces base [zero, mark, '_']

inductive Unsigned (base : Base) : Text → Nat → Prop
  | number (front digits : Text) (values : List Nat) (announces : Announces base front)
      (spelled : Digits base.radix digits values) (admitted : base.admits values.length = true) :
      Unsigned base (front ++ digits) (positional base.radix values)

inductive Signed (base : Base) : Text → Int → Prop
  | bare (t : Text) (n : Nat) (unsigned : Unsigned base t n) : Signed base t n
  | plus (t : Text) (n : Nat) (unsigned : Unsigned base t n) : Signed base ('+' :: t) n
  | minus (t : Text) (n : Nat) (unsigned : Unsigned base t n) : Signed base ('-' :: t) (-n)

def IsNibble (t : Text) : Prop := t.length = 4 ∧ ∀ c ∈ t, c = '0' ∨ c = '1'

instance (t : Text) : Decidable (IsNibble t) := inferInstanceAs (Decidable (_ ∧ _))

def marks : List (Char × Base) := [('b', .binary), ('x', .hexadecimal)]

def figures (base : Base) : Text := "0123456789abcdef".toList.take base.radix

/-- The literals that the assembler takes, and their values. Behind a mark stands any numeral of the
base, with a sign, the mark once more and underscores if it has them. -/
inductive Valued : Text → Int → Prop
  | nibble (t : Text) (values : List Nat) (four : IsNibble t) (spelled : Digits 2 t values) :
      Valued t (positional 2 values)
  | marked (mark : Char) (base : Base) (rest : Text) (n : Int) (known : (mark, base) ∈ marks)
      (signed : Signed base rest n) : Valued ('0' :: mark :: rest) n
  | decimal (t : Text) (values : List Nat) (other : ¬ IsNibble t) (solid : '_' ∉ t)
      (spelled : Digits 10 t values) (short : t.length ≤ 4300) :
      Valued t (positional 10 values)

/-- The literals that the description of the language names: four binary figures, a mark with one
or more figures of its base, or one or more decimal digits. -/
def Documented (t : Text) : Prop :=
  IsNibble t ∨
    (∃ marked ∈ marks, t.take 2 = ['0', marked.1] ∧ t.drop 2 ≠ [] ∧
      ∀ c ∈ t.drop 2, c ∈ figures marked.2) ∨
    t ≠ [] ∧ ∀ c ∈ t, Text.isDecimalDigit c = true

instance (t : Text) : Decidable (Documented t) := inferInstanceAs (Decidable (_ ∨ _ ∨ _))

/-- A numeral behind a mark that has more in it than figures of the base: a sign, the mark once
more, an underscore or a digit of another script. -/
def Overgrown (t : Text) : Prop :=
  ∃ mark base rest n c, (mark, base) ∈ marks ∧ t = '0' :: mark :: rest ∧ Signed base rest n ∧
    c ∈ rest ∧ c ∉ figures base

theorem underscore_no_digit (value : Nat) : ¬ IsDigit '_' value := by
  rintro (figure | known)
  · have absent : '_' ∉ "0123456789abcdef".toList := by decide
    exact absent (List.mem_of_getElem? figure)
  · cases known

theorem digits_cons_iff (radix : Nat) (c : Char) (rest : Text) (values : List Nat) :
    Digits radix (c :: rest) values ↔
      ∃ value others, values = value :: others ∧ IsDigit c value ∧ value < radix ∧
        Continues radix rest others := by
  constructor
  · intro spelled
    cases spelled with
    | last _ value digit below => exact ⟨value, [], rfl, digit, below, .done⟩
    | next _ value _ others digit below more =>
        exact ⟨value, others, rfl, digit, below, .more rest others more⟩
    | gap _ value tail others digit below more =>
        exact ⟨value, others, rfl, digit, below, .gap tail others more⟩
  · rintro ⟨value, others, rfl, digit, below, continues⟩
    cases continues with
    | done => exact .last c value digit below
    | more _ _ more => exact .next c value rest others digit below more
    | gap tail _ more => exact .gap c value tail others digit below more

theorem Digits.each {radix : Nat} {t : Text} {values : List Nat} (spelled : Digits radix t values)
    (solid : '_' ∉ t) :
    values.length = t.length ∧ ∀ c ∈ t, ∃ value < radix, IsDigit c value := by
  induction spelled with
  | last c value digit below =>
      exact ⟨rfl, List.forall_mem_singleton.mpr ⟨value, below, digit⟩⟩
  | next c value rest values digit below more ih =>
      obtain ⟨length, others⟩ := ih fun inside => solid (List.mem_cons_of_mem c inside)
      exact ⟨congrArg (· + 1) length, List.forall_mem_cons.mpr ⟨⟨value, below, digit⟩, others⟩⟩
  | gap c value rest values digit below more ih => simp at solid

theorem digits_present (radix : Nat) (t : Text) (values : List Nat)
    (spelled : Digits radix t values) : t ≠ [] := by
  cases spelled <;> simp

end FourBit.Reference
