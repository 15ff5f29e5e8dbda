import FourBit.Assembly.Encoding
import FourBit.Proofs.Text.Numeral
import FourBit.Proofs.Text.Printed
import FourBit.Proofs.Text.Trim

namespace FourBit.Assembly.Literal

open Reference Numeral

theorem trim_solid (t : Text) (solid : Solid t) : t.trim = t := by
  obtain ⟨left, right, split, blankLeft, blankRight⟩ := Text.trim_margins t
  have gone (gap : Text) (inside : ∀ c ∈ gap, c ∈ t) (blank : ∀ c ∈ gap, Text.isBlank c = true) :
      gap = [] := by
    apply List.eq_nil_iff_forall_not_mem.mpr
    intro c member
    exact Bool.false_ne_true ((solid c (inside c member)).symm.trans (blank c member))
  have noLeft := gone left (by rw [split]; simp +contextual) blankLeft
  have noRight := gone right (by rw [split]; simp +contextual) blankRight
  rw [noLeft, noRight] at split
  simpa using split.symm

theorem solid_lowered_iff (t : Text) : Solid t.lowered ↔ Solid t := by
  have same (c : Char) : Text.isBlank c.toLower = Text.isBlank c := Text.caseless_blank c
  simp only [Solid, Text.lowered, List.forall_mem_map, same]

theorem signed_plain (base : Base) (t : Text) (n : Int)
    (plain : ∀ c ∈ t, c ≠ '+' ∧ c ≠ '-' ∧ base.isMark c = false) :
    Signed base t n ↔ ∃ values, Digits base.radix t values ∧
      base.admits values.length = true ∧ n = positional base.radix values := by
  constructor
  · intro signed
    cases signed with
    | plus rest => exact ((plain '+' List.mem_cons_self).1 rfl).elim
    | minus rest => exact ((plain '-' List.mem_cons_self).2.1 rfl).elim
    | bare _ number unsigned =>
        cases unsigned with
        | number front digits values announces spelled admitted =>
            cases announces with
            | silent => exact ⟨values, spelled, admitted, rfl⟩
            | mark zero mark null known | gap zero mark null known =>
                cases (plain mark (by simp)).2.2.symm.trans known
  · rintro ⟨values, spelled, admitted, rfl⟩
    exact .bare t _ (.number [] t values .silent spelled admitted)

theorem read_decimal_iff (t : Text) (solid : Solid t) (n : Int) :
    (if !t.isEmpty && t.all Text.isDecimalDigit then Numeral.read? .decimal t else none) = some n ↔
      ∃ values, '_' ∉ t ∧ Digits 10 t values ∧ t.length ≤ 4300 ∧ n = positional 10 values := by
  have digits_no_sign (c : Char) (decimal : Text.isDecimalDigit c = true) : c ≠ '+' ∧ c ≠ '-' := by
    constructor <;> (rintro rfl; cases decimal)
  by_cases decimal : t ≠ [] ∧ ∀ c ∈ t, Text.isDecimalDigit c = true
  · obtain ⟨present, each⟩ := decimal
    have clear : '_' ∉ t := fun inside => by cases each '_' inside
    have test : (!t.isEmpty && t.all Text.isDecimalDigit) = true := by
      simpa using ⟨present, each⟩
    have plain : ∀ c ∈ t, c ≠ '+' ∧ c ≠ '-' ∧ Base.decimal.isMark c = false := by
      intro c inside
      exact ⟨(digits_no_sign c (each c inside)).1, (digits_no_sign c (each c inside)).2, rfl⟩
    rw [if_pos test, read_iff_signed .decimal t solid, signed_plain .decimal t n plain]
    apply exists_congr
    intro values
    constructor
    · rintro ⟨spelled, admitted, rfl⟩
      have size := (spelled.each clear).1
      exact ⟨clear, spelled, by simpa [Base.admits, size] using admitted, rfl⟩
    · rintro ⟨_, spelled, short, rfl⟩
      have size := (spelled.each clear).1
      exact ⟨spelled, by simpa [Base.admits, size] using short, rfl⟩
  · have test : ¬ (!t.isEmpty && t.all Text.isDecimalDigit) = true := by
      simpa using decimal
    rw [if_neg test]
    constructor
    · intro read
      cases read
    · rintro ⟨values, clear, spelled, _⟩
      refine (decimal ⟨digits_present 10 t values spelled, ?_⟩).elim
      intro c inside
      exact (isDecimalDigit_iff c).mpr ((spelled.each clear).2 c inside)

theorem isNibble_iff (t : Text) : isNibble t = true ↔ IsNibble t := by
  simp [isNibble, IsNibble]

theorem mark_apart (mark : Char) (base : Base) (known : (mark, base) ∈ marks) :
    ¬ (mark = '0' ∨ mark = '1') ∧ Text.isDecimalDigit mark = false := by
  have table : ∀ marked ∈ marks, ¬ (marked.1 = '0' ∨ marked.1 = '1') ∧
      Text.isDecimalDigit marked.1 = false := by decide
  exact table (mark, base) known

theorem base_of_mark (mark : Char) (base other : Base) (known : (mark, base) ∈ marks)
    (also : (mark, other) ∈ marks) : base = other := by
  have table : ∀ first ∈ marks, ∀ second ∈ marks, first.1 = second.1 → first.2 = second.2 := by
    decide
  exact table (mark, base) known (mark, other) also rfl

theorem marked_not_nibble (mark : Char) (base : Base) (rest : Text)
    (known : (mark, base) ∈ marks) : ¬ IsNibble ('0' :: mark :: rest) :=
  fun four => (mark_apart mark base known).1 (four.2 mark (by simp))

theorem valued_marked_iff (mark : Char) (base : Base) (rest : Text) (n : Int)
    (known : (mark, base) ∈ marks) :
    Valued ('0' :: mark :: rest) n ↔ Signed base rest n := by
  constructor
  · intro valued
    cases valued with
    | nibble _ values four => exact (marked_not_nibble mark base rest known four).elim
    | marked _ other _ _ also signed =>
        rw [base_of_mark mark base other known also]
        exact signed
    | decimal _ values _ clear spelled =>
        have digit := (isDecimalDigit_iff mark).mpr ((spelled.each clear).2 mark (by simp))
        cases (mark_apart mark base known).2.symm.trans digit
  · exact .marked mark base rest n known

theorem read_nibble_iff (t : Text) (solid : Solid t) (four : IsNibble t) (n : Int) :
    Numeral.read? .binary t = some n ↔ Valued t n := by
  have plain : ∀ c ∈ t, c ≠ '+' ∧ c ≠ '-' ∧ Base.binary.isMark c = false := by
    intro c inside
    rcases four.2 c inside with rfl | rfl <;> decide
  rw [read_iff_signed .binary t solid, signed_plain .binary t n plain]
  constructor
  · rintro ⟨values, spelled, _, rfl⟩
    exact .nibble t values four spelled
  · intro valued
    cases valued with
    | nibble _ values _ spelled => exact ⟨values, spelled, rfl, rfl⟩
    | marked mark base rest _ known => exact (marked_not_nibble mark base rest known four).elim
    | decimal _ _ other => exact (other four).elim

theorem read_iff_valued (t : Text) (solid : Solid t) (n : Int) :
    read? t = some n ↔ Valued t.lowered n := by
  have small := (solid_lowered_iff t).mpr solid
  have trimmed : t.trim.map Char.toLower = t.lowered := by rw [trim_solid t solid, Text.lowered]
  simp only [read?, trimmed]
  generalize t.lowered = s at small
  by_cases four : IsNibble s
  · rw [if_pos ((isNibble_iff s).mpr four)]
    exact read_nibble_iff s small four n
  · rw [if_neg ((isNibble_iff s).not.mpr four)]
    split
    · rename_i rest
      have behind : Solid rest := fun c inside => small c (by simp [inside])
      rw [read_iff_signed .binary rest behind, valued_marked_iff 'b' .binary rest n (by decide)]
    · rename_i rest
      have behind : Solid rest := fun c inside => small c (by simp [inside])
      rw [read_iff_signed .hexadecimal rest behind,
        valued_marked_iff 'x' .hexadecimal rest n (by decide)]
    · rename_i noBinary noHexadecimal
      rw [read_decimal_iff s small n]
      constructor
      · rintro ⟨values, clear, spelled, short, rfl⟩
        exact .decimal s values four clear spelled short
      · intro valued
        cases valued with
        | nibble _ _ four' => exact (four four').elim
        | marked mark base rest _ known =>
            simp only [marks, List.mem_cons, List.not_mem_nil, or_false, Prod.mk.injEq] at known
            rcases known with ⟨rfl, rfl⟩ | ⟨rfl, rfl⟩
            · exact (noBinary rest rfl).elim
            · exact (noHexadecimal rest rfl).elim
        | decimal _ values _ clear spelled short => exact ⟨values, clear, spelled, short, rfl⟩

theorem signed_present (base : Base) (t : Text) (n : Int) (signed : Signed base t n) : t ≠ [] := by
  cases signed with
  | plus | minus => simp
  | bare _ number unsigned =>
      obtain ⟨c, rest, _, rfl, _⟩ := unsigned_head base t number unsigned
      simp

theorem documented_of_valued (t : Text) (n : Int) (valued : Valued t n) :
    Documented t ∨ Overgrown t := by
  cases valued with
  | nibble _ values four => exact .inl (.inl four)
  | marked mark base rest _ known signed =>
      by_cases plain : ∀ c ∈ rest, c ∈ figures base
      · exact .inl (.inr (.inl ⟨(mark, base), known, rfl, signed_present base rest n signed, plain⟩))
      · push Not at plain
        obtain ⟨c, inside, other⟩ := plain
        exact .inr ⟨mark, base, rest, n, c, known, rfl, signed, inside, other⟩
  | decimal _ values _ clear spelled =>
      refine .inl (.inr (.inr ⟨digits_present 10 t values spelled, ?_⟩))
      intro c inside
      exact (isDecimalDigit_iff c).mpr ((spelled.each clear).2 c inside)

theorem undocumented_of_overgrown (t : Text) (overgrown : Overgrown t) : ¬ Documented t := by
  obtain ⟨mark, base, rest, n, c, known, rfl, signed, inside, other⟩ := overgrown
  rintro (four | ⟨⟨mark', base'⟩, also, same, _, plain⟩ | ⟨_, decimal⟩)
  · exact marked_not_nibble mark base rest known four
  · obtain rfl : mark = mark' := by simpa using same
    rw [base_of_mark mark base base' known also] at other
    exact other (plain c inside)
  · cases (mark_apart mark base known).2.symm.trans (decimal mark (by simp))

/-- A text without blanks is read as a number exactly if it is a literal, with the value that it
has. So literals are read that the description does not name: those that have more than figures
behind their mark. -/
theorem undocumented_read_iff (t : Text) (solid : Solid t) :
    (∀ n, read? t = some n ↔ Valued t.lowered n) ∧
      ((∃ n, read? t = some n) ∧ ¬ Documented t.lowered ↔ Overgrown t.lowered) := by
  have values := read_iff_valued t solid
  refine ⟨values, ?_⟩
  constructor
  · rintro ⟨⟨n, read⟩, undocumented⟩
    exact (documented_of_valued _ n ((values n).mp read)).resolve_left undocumented
  · intro overgrown
    refine ⟨?_, undocumented_of_overgrown _ overgrown⟩
    obtain ⟨mark, base, rest, n, c, known, same, signed, _⟩ := overgrown
    refine ⟨n, (values n).mpr ?_⟩
    rw [same]
    exact .marked mark base rest n known signed

theorem undocumented_literals_read :
    (Solid "0b+1".toList ∧ ¬ Documented (Text.lowered "0b+1".toList) ∧
      read? "0b+1".toList = some 1 ∧ readImmediate "0b+1".toList = .ok 1 ∧
      readTarget [] "0b+1".toList = .ok 1) ∧
    (Solid "0b1_1".toList ∧ ¬ Documented (Text.lowered "0b1_1".toList) ∧
      read? "0b1_1".toList = some 3 ∧ readImmediate "0b1_1".toList = .ok 3 ∧
      readTarget [] "0b1_1".toList = .ok 3) ∧
    Solid "0b0b1".toList ∧ ¬ Documented (Text.lowered "0b0b1".toList) ∧
      read? "0b0b1".toList = some 1 ∧ readImmediate "0b0b1".toList = .ok 1 ∧
      readTarget [] "0b0b1".toList = .ok 1 := by
  decide

theorem undocumented_read_iff_overgrown :
    Solid "0X-0x_0F".toList ∧ read? "0X-0x_0F".toList = some (-15) ∧
      Valued "0x-0x_0f".toList (-15) ∧ Overgrown "0x-0x_0f".toList := by
  have solid : Solid "0X-0x_0F".toList := by decide
  have read : read? "0X-0x_0F".toList = some (-15) := by decide
  obtain ⟨values, undocumented⟩ := undocumented_read_iff "0X-0x_0F".toList solid
  exact ⟨solid, read, (values (-15)).mp read, undocumented.mp ⟨⟨-15, read⟩, by decide⟩⟩

end FourBit.Assembly.Literal
