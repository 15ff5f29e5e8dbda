import FourBit.Proofs.Text.Digit

/-! The reader of numerals takes what the grammar has, with the value that it has there, as long as
no blank stands in the text. -/

namespace FourBit.Numeral

open Reference

theorem ofDigits_eq_positional (radix : Nat) (values : List Nat) :
    ofDigits radix values = positional radix values := by
  unfold ofDigits positional
  rw [Nat.ofDigits_eq_foldr, List.foldr_reverse]
  congr 1
  funext number value
  simp only [Nat.cast_id]
  ring

def Solid (t : Text) : Prop := ∀ c ∈ t, Text.isBlank c = false

instance (t : Text) : Decidable (Solid t) := inferInstanceAs (Decidable (∀ c ∈ t, _))

theorem solid_cons_iff (c : Char) (rest : Text) :
    Solid (c :: rest) ↔ Text.isBlank c = false ∧ Solid rest := List.forall_mem_cons

theorem isMargin_plainChar (c : Char) (ink : Text.isBlank c = false) :
    isMargin (plainChar c) = false := by
  have table := Text.of_sevenBit (fun c => Text.isBlank c = false → isMargin c = false) (by decide)
  have beyond (d : Char) (large : 128 ≤ d.toNat) : isMargin d = false := by
    apply Bool.eq_false_of_not_eq_true
    simp only [isMargin, Bool.or_eq_true, beq_iff_eq, Bool.and_eq_true, decide_eq_true_eq]
    rintro (rfl | inside)
    · revert large
      decide
    · omega
  rw [plainChar_seen isMargin false c ink (by decide) beyond]
  rcases Nat.lt_or_ge c.toNat 128 with small | large
  · exact table c small ink
  · exact beyond c large

theorem trimMargin_solid (t : Text) (solid : Solid t) :
    trimMargin (t.map plainChar) = t.map plainChar := by
  have kept (u : Text) (clear : ∀ c ∈ u, isMargin c = false) : u.dropWhile isMargin = u := by
    cases u with
    | nil => rfl
    | cons c rest =>
        apply List.dropWhile_cons_of_neg
        rw [clear c List.mem_cons_self]
        decide
  have clear : ∀ c ∈ t.map plainChar, isMargin c = false := by
    intro c inside
    obtain ⟨d, listed, rfl⟩ := List.mem_map.mp inside
    exact isMargin_plainChar d (solid d listed)
  have mirrored : ∀ c ∈ (t.map plainChar).reverse, isMargin c = false := by simpa using clear
  rw [trimMargin, kept _ clear, kept _ mirrored, List.reverse_reverse]

section Digits

variable (radix : Nat) (within : radix ≤ 16)

include within

/-- Digits are read as they are spelled, and behind a digit what may go on there. -/
theorem digits_iff (t : Text) (solid : Solid t) (values : List Nat) :
    (digits? radix false (t.map plainChar) = some values ↔ Digits radix t values) ∧
      (digits? radix true (t.map plainChar) = some values ↔ Continues radix t values) := by
  -- Both at once, since each is read by the other: an underscore stands behind a digit only.
  induction t generalizing values with
  | nil =>
      constructor
      · constructor
        · intro read
          cases read
        · intro spelled
          cases spelled
      · constructor
        · intro read
          cases read
          exact .done
        · intro continues
          cases continues with
          | done => rfl
          | more _ _ spelled => cases spelled
  | cons c rest ih =>
      obtain ⟨ink, others⟩ := (solid_cons_iff c rest).mp solid
      by_cases gap : c = '_'
      · subst gap
        have stuck : ¬ Digits radix ('_' :: rest) values := by
          intro spelled
          obtain ⟨value, _, _, digit, _⟩ := (digits_cons_iff radix '_' rest values).mp spelled
          exact underscore_no_digit value digit
        have read : plainChar '_' = '_' := rfl
        simp only [List.map_cons, digits?, read, if_true, Bool.false_eq_true, if_false,
          (ih others values).1]
        refine ⟨by simpa using stuck, ?_⟩
        constructor
        · exact .gap rest values
        · intro continues
          cases continues with
          | more _ _ spelled => exact (stuck spelled).elim
          | gap _ _ spelled => exact spelled
      · have other := (plainChar_underscore c ink).not.mpr gap
        have either (after : Bool) :
            digits? radix after ((c :: rest).map plainChar) = some values ↔
              Digits radix (c :: rest) values := by
          have known := digitValue_plainChar radix within c ink
          simp only [List.map_cons, digits?, other, if_false, digits_cons_iff]
          constructor
          · intro read
            split at read
            · rename_i value found
              obtain ⟨more, tail, rfl⟩ := Option.map_eq_some_iff.mp read
              obtain ⟨digit, below⟩ := (known value).mp found
              exact ⟨value, more, rfl, digit, below, (ih others more).2.mp tail⟩
            · cases read
          · rintro ⟨value, more, rfl, digit, below, continues⟩
            rw [(known value).mpr ⟨digit, below⟩]
            simp only [(ih others more).2.mpr continues, Option.map_some]
        refine ⟨either false, (either true).trans ?_⟩
        constructor
        · exact .more _ values
        · intro continues
          cases continues with
          | more _ _ spelled => exact spelled
          | gap _ _ spelled => exact (gap rfl).elim

end Digits

section Marks

variable (base : Base)

theorem radix_within : base.radix ≤ 16 := by
  cases base <;> decide

theorem mark_no_digit (mark : Char) (known : base.isMark mark = true) (value : Nat)
    (digit : IsDigit mark value) : base.radix ≤ value := by
  have apart : mark.toNat < 128 ∧ (digitValue? 16 mark).all (base.radix ≤ ·) = true := by
    cases base with
    | decimal => cases known
    | binary | octal | hexadecimal =>
        simp only [Base.isMark, Bool.or_eq_true, beq_iff_eq] at known
        rcases known with rfl | rfl <;> decide
  have found := (digitValue_sevenBit mark apart.1 value).mpr digit
  simpa [found] using apart.2

theorem isMark_plainChar (c : Char) (ink : Text.isBlank c = false) :
    base.isMark (plainChar c) = base.isMark c := by
  apply plainChar_seen base.isMark false c ink
  · cases base <;> decide
  · intro d large
    cases base with
    | decimal => rfl
    | binary | octal | hexadecimal =>
        simp only [Base.isMark, Bool.or_eq_false_iff, beq_eq_false_iff_ne]
        constructor <;> (rintro rfl; revert large; decide)

theorem plainChar_zero (c : Char) (ink : Text.isBlank c = false) :
    plainChar c = '0' ↔ IsDigit c 0 := by
  have known := digitValue_plainChar 16 (Nat.le_refl 16) c ink 0
  have zero (d : Char) : digitValue? 16 d = some 0 ↔ d = '0' := by
    rcases Nat.lt_or_ge d.toNat 128 with small | large
    · exact Text.of_sevenBit (fun d => digitValue? 16 d = some 0 ↔ d = '0') (by decide) d small
    · rw [digitValue_large d large]
      constructor
      · intro found
        cases found
      · rintro rfl
        revert large
        decide
  rw [zero] at known
  simpa using known

theorem dropMark_unmarked (zero mark : Char) (rest : Text)
    (other : zero ≠ '0' ∨ base.isMark mark = false) :
    dropMark base (zero :: mark :: rest) = zero :: mark :: rest := by
  unfold dropMark
  split
  · rename_i equation
    cases equation
    rcases other with absent | unknown
    · exact (absent rfl).elim
    · simp only [unknown, Bool.false_eq_true, if_false]
  · rfl

theorem dropMark_short (t : Text) (short : t.length < 2) : dropMark base t = t := by
  unfold dropMark
  split
  · simp only [List.length_cons] at short
    omega
  · rfl

theorem digits_head (radix : Nat) (t : Text) (values : List Nat) (spelled : Digits radix t values) :
    ∃ c rest value, t = c :: rest ∧ IsDigit c value := by
  cases spelled with
  | last c value digit | next c value _ _ digit | gap c value _ _ digit =>
      exact ⟨c, _, value, rfl, digit⟩

theorem dropMark_digits (t : Text) (solid : Solid t) (values : List Nat)
    (spelled : Digits base.radix t values) : dropMark base (t.map plainChar) = t.map plainChar := by
  cases t with
  | nil => rfl
  | cons c rest =>
      cases rest with
      | nil => exact dropMark_short base _ (by simp)
      | cons d rest =>
          obtain ⟨_, others, _, _, _, continues⟩ := (digits_cons_iff _ _ _ _).mp spelled
          have unmarked : base.isMark d = false := by
            cases continues with
            | more _ _ more =>
                obtain ⟨value, _, _, digit, below, _⟩ := (digits_cons_iff _ _ _ _).mp more
                apply Bool.eq_false_of_not_eq_true
                intro known
                have large := mark_no_digit base d known value digit
                omega
            | gap _ _ _ => cases base <;> rfl
          have ink := solid d (by simp)
          exact dropMark_unmarked base _ _ _ (.inr ((isMark_plainChar base d ink).trans unmarked))

theorem dropUnderscore_cases (t : Text) (solid : Solid t) :
    (∃ rest, t = '_' :: rest ∧ dropUnderscore (t.map plainChar) = rest.map plainChar) ∨
      (∀ rest, t ≠ '_' :: rest) ∧ dropUnderscore (t.map plainChar) = t.map plainChar := by
  cases t with
  | nil => exact .inr ⟨by simp, rfl⟩
  | cons c rest =>
      have read := plainChar_underscore c (solid c List.mem_cons_self)
      by_cases gap : c = '_'
      · subst gap
        exact .inl ⟨rest, rfl, rfl⟩
      · refine .inr ⟨fun tail same => gap (List.cons.inj same).1, ?_⟩
        unfold dropUnderscore
        split
        · rename_i equation
          exact (gap (read.mp (List.cons.inj equation).1)).elim
        · rfl

theorem dropUnderscore_digits (radix : Nat) (t : Text) (solid : Solid t) (values : List Nat)
    (spelled : Digits radix t values) : dropUnderscore (t.map plainChar) = t.map plainChar := by
  rcases dropUnderscore_cases t solid with ⟨rest, rfl, _⟩ | ⟨_, kept⟩
  · obtain ⟨c, _, value, same, digit⟩ := digits_head radix _ values spelled
    cases same
    exact (underscore_no_digit value digit).elim
  · exact kept

theorem dropMark_announced (front t : Text) (solid : Solid (front ++ t)) (values : List Nat)
    (announces : Announces base front) (spelled : Digits base.radix t values) :
    dropMark base ((front ++ t).map plainChar) = t.map plainChar := by
  have behind : Solid t := fun c inside => solid c (List.mem_append_right front inside)
  cases announces with
  | silent => exact dropMark_digits base t behind values spelled
  | mark zero mark null known =>
      have first := (plainChar_zero zero (solid zero (by simp))).mpr null
      have second := (isMark_plainChar base mark (solid mark (by simp))).trans known
      simp only [List.cons_append, List.nil_append, List.map_cons, first, dropMark, second, if_true]
      exact dropUnderscore_digits _ t behind values spelled
  | gap zero mark null known =>
      have first := (plainChar_zero zero (solid zero (by simp))).mpr null
      have second := (isMark_plainChar base mark (solid mark (by simp))).trans known
      have third : plainChar '_' = '_' := rfl
      simp only [List.cons_append, List.nil_append, List.map_cons, first, dropMark, second, if_true,
        third, dropUnderscore]

theorem dropMark_split (t : Text) (solid : Solid t) :
    ∃ front rest, t = front ++ rest ∧ Announces base front ∧
      dropMark base (t.map plainChar) = rest.map plainChar := by
  have whole (same : dropMark base (t.map plainChar) = t.map plainChar) :
      ∃ front rest, t = front ++ rest ∧ Announces base front ∧
        dropMark base (t.map plainChar) = rest.map plainChar :=
    ⟨[], t, rfl, .silent, same⟩
  by_cases short : t.length < 2
  · exact whole (dropMark_short base _ (by simpa using short))
  · obtain ⟨zero, mark, rest, rfl⟩ : ∃ zero mark rest, t = zero :: mark :: rest := by
      match t, short with
      | zero :: mark :: rest, _ => exact ⟨zero, mark, rest, rfl⟩
      | [], short | [_], short => simp at short
    have first := plainChar_zero zero (solid zero (by simp))
    have second := isMark_plainChar base mark (solid mark (by simp))
    by_cases announced : IsDigit zero 0 ∧ base.isMark mark = true
    · obtain ⟨null, known⟩ := announced
      have zeroRead := first.mpr null
      have markRead := second.trans known
      have dropped : dropMark base ((zero :: mark :: rest).map plainChar) =
          dropUnderscore (rest.map plainChar) := by
        simp only [List.map_cons, zeroRead, dropMark, markRead, if_true]
      have behind : Solid rest := fun c inside => solid c (by simp [inside])
      rcases dropUnderscore_cases rest behind with ⟨tail, rfl, cut⟩ | ⟨_, kept⟩
      · exact ⟨[zero, mark, '_'], tail, rfl, .gap zero mark null known, dropped.trans cut⟩
      · exact ⟨[zero, mark], rest, rfl, .mark zero mark null known, dropped.trans kept⟩
    · apply whole
      apply dropMark_unmarked
      rw [second]
      by_cases null : IsDigit zero 0
      · exact .inr (Bool.eq_false_of_not_eq_true fun known => announced ⟨null, known⟩)
      · exact .inl (first.not.mpr null)

theorem unsigned_iff (t : Text) (solid : Solid t) (n : Nat) :
    unsigned? base (t.map plainChar) = some n ↔ Unsigned base t n := by
  have spelled (rest : Text) (clear : Solid rest) (values : List Nat) :=
    (digits_iff base.radix (radix_within base) rest clear values).1
  constructor
  · intro read
    obtain ⟨front, rest, rfl, announces, dropped⟩ := dropMark_split base t solid
    have behind : Solid rest := fun c inside => solid c (List.mem_append_right front inside)
    simp only [unsigned?, magnitude?, dropped] at read
    split at read
    · rename_i values found
      split at read
      · rename_i admitted
        cases read
        rw [ofDigits_eq_positional]
        exact .number front rest values announces ((spelled rest behind values).mp found) admitted
      · cases read
    · cases read
  · rintro ⟨front, rest, values, announces, digits, admitted⟩
    have behind : Solid rest := fun c inside => solid c (List.mem_append_right front inside)
    have dropped := dropMark_announced base front rest solid values announces digits
    simp only [unsigned?, magnitude?, dropped, (spelled rest behind values).mpr digits, admitted,
      if_true, ofDigits_eq_positional]

theorem unsigned_head (t : Text) (n : Nat) (unsigned : Unsigned base t n) :
    ∃ c rest value, t = c :: rest ∧ IsDigit c value := by
  cases unsigned with
  | number front digits values announces spelled admitted =>
      cases announces with
      | silent => exact digits_head base.radix digits values spelled
      | mark zero mark null | gap zero mark null => exact ⟨zero, _, 0, rfl, null⟩

theorem signed_plus (read? : Text → Option Nat) (rest : Text) :
    signed? read? (('+' :: rest).map plainChar) =
      (read? (rest.map plainChar)).map Int.ofNat := rfl

theorem signed_minus (read? : Text → Option Nat) (rest : Text) :
    signed? read? (('-' :: rest).map plainChar) =
      (read? (rest.map plainChar)).map fun n : Nat => -(n : Int) := by
  have read : plainChar '-' = '-' := rfl
  simp only [List.map_cons, read, signed?]
  cases read? (rest.map plainChar) <;> rfl

theorem signed_unsigned (read? : Text → Option Nat) (t : Text) (solid : Solid t)
    (plus : ∀ rest, t ≠ '+' :: rest) (minus : ∀ rest, t ≠ '-' :: rest) :
    signed? read? (t.map plainChar) = (read? (t.map plainChar)).map Int.ofNat := by
  cases t with
  | nil => rfl
  | cons c rest =>
      have ink := solid c List.mem_cons_self
      have first := plainChar_eq_iff '+' (by decide) (by decide) c ink
      have second := plainChar_eq_iff '-' (by decide) (by decide) c ink
      unfold signed?
      split
      · rename_i equation
        cases first.mp (List.cons.inj equation).1
        exact (plus rest rfl).elim
      · rename_i equation
        cases second.mp (List.cons.inj equation).1
        exact (minus rest rfl).elim
      · rfl

theorem sign_no_digit (sign : Char) (either : sign = '+' ∨ sign = '-') (value : Nat) :
    ¬ IsDigit sign value := by
  intro digit
  have found := (digitValue_sevenBit sign (by rcases either with rfl | rfl <;> decide) value).mpr
    digit
  rcases either with rfl | rfl <;> cases found

/-- The reader takes the numerals of the grammar, with their values. -/
theorem read_iff_signed (t : Text) (solid : Solid t) (n : Int) :
    read? base t = some n ↔ Signed base t n := by
  rw [read?, trimMargin_solid t solid]
  constructor
  · intro read
    by_cases plus : ∃ rest, t = '+' :: rest
    · obtain ⟨rest, rfl⟩ := plus
      have behind := ((solid_cons_iff '+' rest).mp solid).2
      rw [signed_plus] at read
      obtain ⟨number, found, rfl⟩ := Option.map_eq_some_iff.mp read
      exact .plus rest number ((unsigned_iff base rest behind number).mp found)
    by_cases minus : ∃ rest, t = '-' :: rest
    · obtain ⟨rest, rfl⟩ := minus
      have behind := ((solid_cons_iff '-' rest).mp solid).2
      rw [signed_minus] at read
      obtain ⟨number, found, rfl⟩ := Option.map_eq_some_iff.mp read
      exact .minus rest number ((unsigned_iff base rest behind number).mp found)
    · rw [signed_unsigned _ t solid (not_exists.mp plus) (not_exists.mp minus)] at read
      obtain ⟨number, found, rfl⟩ := Option.map_eq_some_iff.mp read
      exact .bare t number ((unsigned_iff base t solid number).mp found)
  · intro signed
    cases signed with
    | bare _ number unsigned =>
        obtain ⟨c, rest, value, rfl, digit⟩ := unsigned_head base t number unsigned
        have unmarked (sign : Char) (either : sign = '+' ∨ sign = '-') (tail : Text) :
            c :: rest ≠ sign :: tail := by
          intro same
          obtain rfl : c = sign := (List.cons.inj same).1
          exact sign_no_digit c either value digit
        rw [signed_unsigned _ _ solid (unmarked '+' (.inl rfl)) (unmarked '-' (.inr rfl)),
          (unsigned_iff base _ solid number).mpr unsigned]
        rfl
    | plus rest number unsigned =>
        have behind := ((solid_cons_iff '+' rest).mp solid).2
        have found := (unsigned_iff base rest behind number).mpr unsigned
        rw [signed_plus, found]
        rfl
    | minus rest number unsigned =>
        have behind := ((solid_cons_iff '-' rest).mp solid).2
        have found := (unsigned_iff base rest behind number).mpr unsigned
        rw [signed_minus, found]
        rfl

end Marks

end FourBit.Numeral
