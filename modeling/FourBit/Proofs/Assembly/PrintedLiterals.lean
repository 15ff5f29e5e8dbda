import FourBit.Proofs.Assembly.Literals

namespace FourBit.Assembly.Literal

open Reference Numeral

/-- The numbers whose decimal text is a nibble. -/
def nibbleLike : List Nat := [1000, 1001, 1010, 1011, 1100, 1101, 1110, 1111]

theorem solid_toDigits (radix : Nat) (positive : 1 < radix) (within : radix ≤ 16) (n : Nat) :
    Solid (Nat.toDigits radix n) := by
  have table : ∀ value < 16, Text.isBlank (Nat.digitChar value) = false := by decide
  intro c inside
  obtain ⟨value, below, rfl⟩ := mem_toDigits radix positive within n c inside
  exact table value (by omega)

theorem read_marked (mark : Char) (base : Base) (known : (mark, base) ∈ marks) (n zeros : Nat)
    (t : Text)
    (printed : t.lowered = '0' :: mark :: (List.replicate zeros '0' ++ Nat.toDigits base.radix n)) :
    read? t = some (n : Int) := by
  have table : ∀ marked ∈ marks, 1 < marked.2.radix ∧ Text.isBlank marked.1 = false ∧
      ∀ count, marked.2.admits count = true := by
    intro marked listed
    simp only [marks, List.mem_cons, List.not_mem_nil, or_false] at listed
    rcases listed with rfl | rfl <;> exact ⟨by decide, by decide, fun _ => rfl⟩
  obtain ⟨positive, ink, admitted⟩ := table (mark, base) known
  have within := radix_within base
  have solid : Solid t := by
    apply (solid_lowered_iff t).mp
    rw [printed]
    intro c inside
    simp only [List.mem_cons, List.mem_append, List.mem_replicate] at inside
    rcases inside with rfl | rfl | ⟨_, rfl⟩ | figure
    · rfl
    · exact ink
    · rfl
    · exact solid_toDigits base.radix positive within n c figure
  obtain ⟨values, spelled, value⟩ := digits_toDigits base.radix positive within n
  obtain ⟨padded, whole, same⟩ := digits_padded base.radix _ values zeros spelled
    (Nat.zero_lt_of_lt positive)
  have unsigned := Unsigned.number [] _ padded .silent whole (admitted padded.length)
  rw [same, value] at unsigned
  rw [read_iff_valued t solid, printed]
  exact .marked mark base _ n known (.bare _ n unsigned)

theorem decimal_nat (n : Nat) : Text.decimal n = Nat.toDigits 10 n := by
  have natural : ¬ (n : Int) < 0 := by omega
  rw [Text.decimal, if_neg natural, Int.natAbs_natCast]

theorem lowered_toDigits (n : Nat) : Text.lowered (Nat.toDigits 10 n) = Nat.toDigits 10 n := by
  have table : ∀ value < 10, (Nat.digitChar value).toLower = Nat.digitChar value := by decide
  have same : ∀ c ∈ Nat.toDigits 10 n, c.toLower = id c := by
    intro c inside
    obtain ⟨value, below, rfl⟩ := mem_toDigits 10 (by decide) (by decide) n c inside
    exact table value below
  exact (List.map_congr_left same).trans (List.map_id _)

theorem isNibble_toDigits_iff (n : Nat) : IsNibble (Nat.toDigits 10 n) ↔ n ∈ nibbleLike := by
  constructor
  · rintro ⟨four, binary⟩
    have large : 1000 ≤ n := by
      have size := Nat.length_toDigits_le_iff (b := 10) (n := n) (k := 3) (by decide) (by decide)
      omega
    have value := Nat.ofDigitChars_toDigits (b := 10) (n := n) (by decide) (by decide)
    match figures : Nat.toDigits 10 n, four with
    | [a, b, c, d], _ =>
      rw [figures] at value binary
      simp only [List.forall_mem_cons] at binary
      obtain ⟨first, second, third, fourth, _⟩ := binary
      subst value
      rcases first with rfl | rfl <;> rcases second with rfl | rfl <;>
        rcases third with rfl | rfl <;> rcases fourth with rfl | rfl <;> revert large <;> decide
  · have table : ∀ n ∈ nibbleLike, IsNibble (Nat.toDigits 10 n) := by decide
    exact table n

def nibbleValue (n : Nat) : Nat := Nat.ofDigits 2 (Nat.digits 10 n)

theorem read_nibbleLike (n : Nat) (listed : n ∈ nibbleLike) :
    read? (Nat.toDigits 10 n) = some (nibbleValue n : Int) := by
  simp only [nibbleLike, List.mem_cons, List.not_mem_nil, or_false] at listed
  rcases listed with rfl | rfl | rfl | rfl | rfl | rfl | rfl | rfl <;>
    simp [nibbleValue, Nat.ofDigits_cons] <;> rfl

theorem no_long_literal (t : Text) (clear : '_' ∉ t) (values : List Nat)
    (spelled : Digits 10 t values) (long : 4300 < t.length) (n : Int) : ¬ Valued t n := by
  intro valued
  cases valued with
  | nibble _ _ four =>
      have size := four.1
      omega
  | marked mark base rest _ known =>
      have digit := (isDecimalDigit_iff mark).mpr ((spelled.each clear).2 mark (by simp))
      cases (mark_apart mark base known).2.symm.trans digit
  | decimal _ _ _ _ _ short => omega

theorem read_decimal (n : Nat) :
    read? (Text.decimal n) =
      if 4300 < (Text.decimal n).length then none
      else if n ∈ nibbleLike then some (nibbleValue n : Int)
      else some (n : Int) := by
  rw [decimal_nat]
  have clear : '_' ∉ Nat.toDigits 10 n := Nat.underscore_not_in_toDigits
  have valued := read_iff_valued _ (solid_toDigits 10 (by decide) (by decide) n)
  rw [lowered_toDigits] at valued
  obtain ⟨values, spelled, value⟩ := digits_toDigits 10 (by decide) (by decide) n
  split
  · rename_i long
    apply Option.eq_none_iff_forall_ne_some.mpr
    intro m read
    exact no_long_literal _ clear values spelled long m ((valued m).mp read)
  · rename_i short
    split
    · rename_i listed
      exact read_nibbleLike n listed
    · rename_i other
      have plain := (isNibble_toDigits_iff n).not.mpr other
      rw [valued]
      have given := Valued.decimal _ values plain clear spelled (Nat.le_of_not_lt short)
      rw [value] at given
      exact given

/-- Literals read what is printed. Behind the mark of its base a number is read in any case of the
letters and with any number of zeros before it. Its decimal text is read too, unless it is too long,
or unless it is one of eight numbers: those are the ones whose text is a nibble, and they are read
as that nibble. -/
theorem printed_literals_read (n : Nat) :
    (∀ mark base zeros t, (mark, base) ∈ marks →
      Text.lowered t = '0' :: mark :: (List.replicate zeros '0' ++ Nat.toDigits base.radix n) →
      read? t = some (n : Int)) ∧
    (read? (Text.decimal n) =
      if 4300 < (Text.decimal n).length then none
      else if n ∈ nibbleLike then some (nibbleValue n : Int)
      else some (n : Int)) ∧
    (n ∈ nibbleLike ↔
      (Text.decimal n).length = 4 ∧ ∀ c ∈ Text.decimal n, c = '0' ∨ c = '1') := by
  refine ⟨?_, read_decimal n, ?_⟩
  · intro mark base zeros t known printed
    exact read_marked mark base known n zeros t printed
  · rw [decimal_nat]
    exact (isNibble_toDigits_iff n).symm

theorem printed_literals_read_mixed :
    ('x', Base.hexadecimal) ∈ marks ∧
      Text.lowered "0X00aBcD".toList =
        '0' :: 'x' :: (List.replicate 2 '0' ++ Nat.toDigits Base.hexadecimal.radix 43981) ∧
      read? "0X00aBcD".toList = some 43981 ∧ read? (Text.decimal 1101) = some 13 ∧
      read? (Text.decimal 1102) = some 1102 := by
  have known : ('x', Base.hexadecimal) ∈ marks := by decide
  have printed : Text.lowered "0X00aBcD".toList =
      '0' :: 'x' :: (List.replicate 2 '0' ++ Nat.toDigits Base.hexadecimal.radix 43981) := by
    decide
  have first := (printed_literals_read 43981).1 'x' .hexadecimal 2 _ known printed
  have second := (printed_literals_read 1101).2.1
  have third := (printed_literals_read 1102).2.1
  have value : nibbleValue 1101 = 13 := by simp [nibbleValue, Nat.ofDigits_cons]
  simp only [value] at second
  exact ⟨known, printed, first, second, third⟩

end FourBit.Assembly.Literal
