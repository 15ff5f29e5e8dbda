import FourBit.Text.DecimalDigit
import FourBit.Text.UpperCase

namespace FourBit.Text

theorem of_sevenBit (kept : Char → Prop) (table : ∀ n < 128, kept (Char.ofNat n)) (c : Char)
    (small : c.toNat < 128) : kept c := by
  have found := table c.toNat small
  rw [Char.ofNat_toNat] at found
  exact found

theorem upper_sevenBit (t : Text) (small : ∀ c ∈ t, c.toNat < 128) :
    t.upper = t.map Char.toUpper := by
  induction t with
  | nil => rfl
  | cons c rest ih =>
      obtain ⟨first, others⟩ := List.forall_mem_cons.mp small
      have tail := ih others
      unfold upper at tail ⊢
      rw [List.flatMap_cons, tail, upperChar, if_pos first]
      rfl

theorem toNat_of_ofNat (n : Nat) (letter : Char) (positive : letter.toNat ≠ 0)
    (same : Char.ofNat n = letter) : n = letter.toNat := by
  by_cases valid : n.isValidChar
  · have code : (Char.ofNat n).toNat = n := congrArg Char.toNat (dif_pos valid)
    rw [← code, same]
  · have code : Char.ofNat n = '\x00' := dif_neg valid
    rw [← same, code] at positive
    exact (positive rfl).elim

theorem caseRuns_miss (run : CaseRun) (listed : run ∈ caseRuns) :
    run.contains (65 - run.shift).toNat = false ∧ run.contains (66 - run.shift).toNat = false := by
  have all : caseRuns.all (fun run => !run.contains (65 - run.shift).toNat &&
      !run.contains (66 - run.shift).toNat) = true := by decide +kernel
  simpa using List.all_eq_true.mp all run listed

theorem caseExpansions_long (entry : Nat × List Nat) (listed : entry ∈ caseExpansions) :
    2 ≤ entry.2.length := by
  have all : caseExpansions.all (fun entry => 2 ≤ entry.2.length) = true := by decide +kernel
  simpa using List.all_eq_true.mp all entry listed

theorem upperChar_present (c : Char) : 1 ≤ (upperChar c).length := by
  unfold upperChar
  split
  · exact Nat.le_refl 1
  · split
    · rename_i code capitals found
      have long : 2 ≤ capitals.length := caseExpansions_long _ (List.mem_of_find?_eq_some found)
      rw [List.length_map]
      omega
    · split <;> exact Nat.le_refl 1

theorem sevenBit_of_upperChar (c letter : Char) (either : letter = 'A' ∨ letter = 'B')
    (same : upperChar c = [letter]) : c.toNat < 128 := by
  have code : letter.toNat = 65 ∨ letter.toNat = 66 := by
    rcases either with rfl | rfl
    · exact .inl rfl
    · exact .inr rfl
  rcases Nat.lt_or_ge c.toNat 128 with small | large
  · exact small
  have beyond : ¬ c.toNat < 128 := by omega
  simp only [upperChar, beyond, if_false] at same
  split at same
  · rename_i place capitals found
    have long : 2 ≤ capitals.length := caseExpansions_long _ (List.mem_of_find?_eq_some found)
    have short := congrArg List.length same
    simp only [List.length_map, List.length_singleton] at short
    omega
  · split at same
    · rename_i run found
      have inside : run.contains c.toNat = true := by
        simpa using List.find?_some found
      have point := toNat_of_ofNat _ letter (by omega) (List.singleton_inj.mp same)
      rcases caseRuns_miss run (List.mem_of_find?_eq_some found) with ⟨missA, missB⟩
      rcases code with isA | isB
      · have origin : (65 - run.shift).toNat = c.toNat := by omega
        rw [origin, inside] at missA
        cases missA
      · have origin : (66 - run.shift).toNat = c.toNat := by omega
        rw [origin, inside] at missB
        cases missB
    · cases same
      omega

theorem upperChar_eq_letter (c letter : Char) (either : letter = 'A' ∨ letter = 'B')
    (same : upperChar c = [letter]) : c = letter ∨ c = letter.toLower := by
  have small := sevenBit_of_upperChar c letter either same
  simp only [upperChar, small, if_true, List.singleton_inj] at same
  have letters := of_sevenBit (fun c => (c.toUpper = 'A' → c = 'A' ∨ c = 'a') ∧
    (c.toUpper = 'B' → c = 'B' ∨ c = 'b')) (by decide)
  rcases letters c small with ⟨onlyA, onlyB⟩
  rcases either with rfl | rfl
  · exact onlyA same
  · exact onlyB same

theorem upper_eq_letter (t : Text) (letter : Char) (either : letter = 'A' ∨ letter = 'B')
    (same : t.upper = [letter]) : t = [letter] ∨ t = [letter.toLower] := by
  cases t with
  | nil => cases same
  | cons c rest =>
      have size := congrArg List.length same
      simp only [upper, List.flatMap_cons, List.length_append, List.length_singleton] at size
      have first := upperChar_present c
      cases rest with
      | nil =>
          simp only [upper, List.flatMap_cons, List.flatMap_nil, List.append_nil] at same
          rcases upperChar_eq_letter c letter either same with rfl | rfl
          · exact .inl rfl
          · exact .inr rfl
      | cons d rest =>
          have second := upperChar_present d
          simp only [List.flatMap_cons, List.length_append] at size
          omega

def digitRanges : List (Nat × Nat) :=
  scriptZeros.map (fun first => (first, first + 9)) ++ figureRanges

theorem range_of_digit (c : Char) (digit : isDigitLike c = true) :
    ∃ range ∈ digitRanges, range.1 ≤ c.toNat ∧ c.toNat ≤ range.2 := by
  simp only [isDigitLike, isDecimalDigit, decimalValue?, Option.isSome_map, Bool.or_eq_true,
    List.find?_isSome, List.any_eq_true, Bool.and_eq_true, decide_eq_true_eq] at digit
  rcases digit with ⟨first, listed, low, high⟩ | ⟨range, listed, low, high⟩
  · exact ⟨(first, first + 9), List.mem_append_left _ (List.mem_map.mpr ⟨first, listed, rfl⟩), low,
      Nat.le_of_lt_succ high⟩
  · exact ⟨range, List.mem_append_right _ listed, low, high⟩

theorem digitRanges_caseless (range : Nat × Nat) (listed : range ∈ digitRanges) :
    (∀ entry ∈ caseExpansions, entry.1 < range.1 ∨ range.2 < entry.1) ∧
      ∀ run ∈ caseRuns, run.last < range.1 ∨ range.2 < run.first := by
  have expansions : digitRanges.all (fun range => caseExpansions.all fun entry =>
      entry.1 < range.1 || range.2 < entry.1) = true := by decide +kernel
  have runs : digitRanges.all (fun range => caseRuns.all fun run =>
      run.last < range.1 || range.2 < run.first) = true := by decide +kernel
  have first := List.all_eq_true.mp expansions range listed
  have second := List.all_eq_true.mp runs range listed
  exact ⟨by simpa using first, by simpa using second⟩

theorem upperChar_digit (c : Char) (digit : isDigitLike c = true) : upperChar c = [c] := by
  unfold upperChar
  split
  · rename_i small
    have table := of_sevenBit (fun c => isDigitLike c = true → c.toUpper = c) (by decide +kernel)
    rw [table c small digit]
  · rcases range_of_digit c digit with ⟨range, listed, low, high⟩
    rcases digitRanges_caseless range listed with ⟨expansions, runs⟩
    split
    · rename_i code capitals found
      have same : code = c.toNat := by simpa using List.find?_some found
      have apart := expansions _ (List.mem_of_find?_eq_some found)
      simp only at apart
      omega
    · split
      · rename_i run found
        have inside : run.contains c.toNat = true := by simpa using List.find?_some found
        have apart := runs run (List.mem_of_find?_eq_some found)
        simp only [CaseRun.contains, Bool.and_eq_true, decide_eq_true_eq] at inside
        omega
      · rfl

end FourBit.Text
