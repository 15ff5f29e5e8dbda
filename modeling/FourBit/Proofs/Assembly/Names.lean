import FourBit.Proofs.Assembly.Reading
import FourBit.Proofs.Text.UpperCase

namespace FourBit

open Reference

namespace Assembly.Line

theorem isNamePart_of_isNameStart (c : Char) (start : isNameStart c = true) :
    isNamePart c = true := by
  simp only [isNameStart, isNamePart, Char.isAlphanum, Bool.or_eq_true] at start ⊢
  rcases start with letter | underscore
  · exact .inl (.inl letter)
  · exact .inr underscore

theorem sevenBit_of_isNamePart (c : Char) (part : isNamePart c = true) : c.toNat < 128 := by
  have classes : ((decide (65 ≤ c.val ∧ c.val ≤ 90) ||
      (decide (97 ≤ c.val) && decide (c.val ≤ 122))) ||
      (decide (48 ≤ c.val) && decide (c.val ≤ 57)) || c == '_') = true := part
  simp only [Bool.or_eq_true, Bool.and_eq_true, decide_eq_true_eq, UInt32.le_iff_toNat_le,
    beq_iff_eq] at classes
  rcases classes with ((upper | lower) | digit) | rfl
  · exact Nat.lt_of_le_of_lt upper.2 (by decide)
  · exact Nat.lt_of_le_of_lt lower.2 (by decide)
  · exact Nat.lt_of_le_of_lt digit.2 (by decide)
  · decide

theorem solid_of_isNamePart (c : Char) (part : isNamePart c = true) : isSeparator c = false := by
  have table := Text.of_sevenBit (fun c => isNamePart c = true → isSeparator c = false)
    (by decide +kernel)
  exact table c (sevenBit_of_isNamePart c part) part

theorem toUpper_part (c : Char) (part : isNamePart c = true) :
    (isNameStart c = true → isNameStart c.toUpper = true) ∧ isNamePart c.toUpper = true ∧
      c.toUpper.toUpper = c.toUpper := by
  have table := Text.of_sevenBit (fun c => isNamePart c = true →
    (isNameStart c = true → isNameStart c.toUpper = true) ∧ isNamePart c.toUpper = true ∧
      c.toUpper.toUpper = c.toUpper) (by decide +kernel)
  exact table c (sevenBit_of_isNamePart c part) part

theorem letter_of_named (c : Char) (rest : Text) (named : IsName (Text.upper (c :: rest))) :
    Text.isDigitLike c = false := by
  rw [← Bool.not_eq_true]
  intro digit
  rcases named with ⟨d, others, split, start, _⟩
  rw [Text.upper, List.flatMap_cons, Text.upperChar_digit c digit] at split
  cases split
  have table := Text.of_sevenBit (fun c => isNameStart c = true → Text.isDigitLike c = false)
    (by decide +kernel)
  have small := sevenBit_of_isNamePart c (isNamePart_of_isNameStart c start)
  exact Bool.false_ne_true ((table c small start).symm.trans digit)

theorem read_label (number : Nat) (raw name : Text)
    (label : (read number raw).label? = some name) :
    ∃ written, IsName written ∧ name = written.upper := by
  simp only [Line.read] at label
  split at label
  · rename_i written rest split
    cases label
    exact ⟨written, (name_of_splitLabel _ written rest split).1, rfl⟩
  · cases label

end Assembly.Line

namespace Reference.IsName

open Assembly (isSeparator)
open Assembly.Line

variable {name : Text} (named : IsName name)

include named

theorem parts : ∀ c ∈ name, isNamePart c = true := by
  obtain ⟨c, rest, rfl, start, parts⟩ := named
  exact List.forall_mem_cons.mpr ⟨isNamePart_of_isNameStart c start, parts⟩

theorem solid : ∀ c ∈ name, isSeparator c = false := by
  intro c inside
  exact solid_of_isNamePart c (named.parts c inside)

theorem upper_eq : name.upper = name.map Char.toUpper := by
  apply Text.upper_sevenBit
  intro c inside
  exact sevenBit_of_isNamePart c (named.parts c inside)

theorem upper : IsName name.upper := by
  rw [named.upper_eq]
  obtain ⟨c, rest, rfl, start, parts⟩ := named
  have first := toUpper_part c (isNamePart_of_isNameStart c start)
  refine ⟨c.toUpper, rest.map Char.toUpper, rfl, first.1 start, ?_⟩
  intro d inside
  obtain ⟨e, listed, rfl⟩ := List.mem_map.mp inside
  exact (toUpper_part e (parts e listed)).2.1

theorem upper_upper : name.upper.upper = name.upper := by
  rw [named.upper.upper_eq, named.upper_eq, List.map_map]
  apply List.map_congr_left
  intro c inside
  exact (toUpper_part c (named.parts c inside)).2.2

theorem clear : ∀ c ∈ name, c ≠ ';' ∧ c ≠ '#' ∧ c ≠ '\n' := by
  intro c inside
  have part := named.parts c inside
  refine ⟨?_, ?_, ?_⟩ <;> rintro rfl <;> cases part

end Reference.IsName

end FourBit
