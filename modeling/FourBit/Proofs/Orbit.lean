import Mathlib.Data.Finset.Card

/-! Orbits of partial step functions: how far a start carries, and when it carries for ever. -/

namespace FourBit

/-- What becomes of a start in a number of steps, if all of them are possible. -/
def orbit {α : Type} (next? : α → Option α) (start : α) : Nat → Option α
  | 0 => some start
  | n + 1 => (orbit next? start n).bind next?

variable {α : Type} {next? : α → Option α} {start : α}

theorem orbit_succ_iff (n : Nat) (y : α) :
    orbit next? start (n + 1) = some y ↔
      ∃ x, orbit next? start n = some x ∧ next? x = some y := by
  simp only [orbit, Option.bind_eq_some_iff]

theorem orbit_earlier (k n : Nat) (y : α) (reached : orbit next? start n = some y)
    (before : k ≤ n) : ∃ x, orbit next? start k = some x := by
  induction n generalizing y with
  | zero => exact ⟨y, by simpa only [Nat.le_zero.mp before] using reached⟩
  | succ n ih =>
      rcases Nat.lt_or_eq_of_le before with earlier | rfl
      · obtain ⟨x, present, _⟩ := (orbit_succ_iff n y).mp reached
        exact ih x present (Nat.le_of_lt_succ earlier)
      · exact ⟨y, reached⟩

theorem orbit_step (k n : Nat) (x y : α) (present : orbit next? start k = some x)
    (reached : orbit next? start n = some y) (before : k < n) :
    ∃ z, next? x = some z ∧ orbit next? start (k + 1) = some z := by
  rcases orbit_earlier (k + 1) n y reached before with ⟨z, later⟩
  rcases (orbit_succ_iff k z).mp later with ⟨x', same, moved⟩
  have equal : x' = x := Option.some.inj (same.symm.trans present)
  subst equal
  exact ⟨z, moved, later⟩

theorem orbit_stuck (k n : Nat) (x y : α) (present : orbit next? start k = some x)
    (stuck : next? x = none) (reached : orbit next? start n = some y) : n ≤ k := by
  by_contra beyond
  rcases orbit_step k n x y present reached (Nat.lt_of_not_le beyond) with ⟨z, moved, _⟩
  rw [stuck] at moved
  cases moved

theorem orbit_end_unique (k n : Nat) (x y : α) (present : orbit next? start k = some x)
    (stuck : next? x = none) (reached : orbit next? start n = some y) (stuck' : next? y = none) :
    k = n ∧ x = y := by
  have same : k = n := Nat.le_antisymm (orbit_stuck n k y x reached stuck' present)
    (orbit_stuck k n x y present stuck reached)
  subst same
  exact ⟨rfl, Option.some.inj (present.symm.trans reached)⟩

theorem orbit_mono (further? : α → Option α)
    (wider : ∀ x y, next? x = some y → further? x = some y) (n : Nat) (y : α)
    (reached : orbit next? start n = some y) : orbit further? start n = some y := by
  induction n generalizing y with
  | zero => exact reached
  | succ n ih =>
      rcases (orbit_succ_iff n y).mp reached with ⟨x, present, moved⟩
      exact (orbit_succ_iff n y).mpr ⟨x, ih x present, wider x y moved⟩

theorem orbit_rest (k n : Nat) (x : α) (present : orbit next? start k = some x)
    (fixed : next? x = some x) (later : k ≤ n) : orbit next? start n = some x := by
  induction n, later using Nat.le_induction with
  | base => exact present
  | succ n _ ih => exact (orbit_succ_iff n x).mpr ⟨x, ih, fixed⟩

theorem orbit_collision {β : Type} (core : α → β) (cores : Finset β)
    (inside : ∀ n x, orbit next? start n = some x → core x ∈ cores)
    (last : α) (long : orbit next? start cores.card = some last) :
    ∃ i j x y, i < j ∧ j ≤ cores.card ∧ orbit next? start i = some x ∧
      orbit next? start j = some y ∧ core x = core y := by
  have places : ∀ k ∈ Finset.range (cores.card + 1), ∃ x, orbit next? start k = some x := by
    intro k member
    exact orbit_earlier k _ last long (Nat.le_of_lt_succ (Finset.mem_range.mp member))
  have inhabited : Nonempty α := ⟨start⟩
  choose! place reached using places
  have few : cores.card < (Finset.range (cores.card + 1)).card := by
    rw [Finset.card_range]
    exact Nat.lt_succ_self _
  have mapped : ∀ k ∈ Finset.range (cores.card + 1), core (place k) ∈ cores :=
    fun k member => inside k _ (reached k member)
  -- There is one place more than there are cores.
  obtain ⟨i, iMember, j, jMember, different, same⟩ :=
    Finset.exists_ne_map_eq_of_card_lt_of_maps_to few mapped
  have iBound := Nat.le_of_lt_succ (Finset.mem_range.mp iMember)
  have jBound := Nat.le_of_lt_succ (Finset.mem_range.mp jMember)
  rcases Nat.lt_or_gt_of_ne different with less | greater
  · exact ⟨i, j, _, _, less, jBound, reached i iMember, reached j jMember, same⟩
  · exact ⟨j, i, _, _, greater, iBound, reached j jMember, reached i iMember, same.symm⟩

/-- If the core alone decides whether and whereto a step leads, an orbit with as many steps as there
are cores never ends: it has come back to a core and goes round from there. -/
theorem orbit_unending {β : Type} (core : α → β) (cores : Finset β)
    (lockstep : ∀ x y x', core x = core y → next? x = some x' →
      ∃ y', next? y = some y' ∧ core x' = core y')
    (inside : ∀ n x, orbit next? start n = some x → core x ∈ cores)
    (last : α) (long : orbit next? start cores.card = some last) (n : Nat) :
    ∃ x, orbit next? start n = some x := by
  obtain ⟨i, j, first, again, order, bound, atFirst, atAgain, same⟩ :=
    orbit_collision core cores inside last long
  -- every place has the core of one before the collision
  have shadow : ∃ x k y, orbit next? start n = some x ∧ k < j ∧
      orbit next? start k = some y ∧ core y = core x := by
    induction n with
    | zero => exact ⟨start, 0, start, rfl, Nat.zero_lt_of_lt order, rfl, rfl⟩
    | succ n ih =>
        rcases ih with ⟨x, k, y, present, before, reached, alike⟩
        obtain ⟨y', moved, next⟩ :=
          orbit_step k cores.card y last reached long (Nat.lt_of_lt_of_le before bound)
        rcases lockstep y x y' alike moved with ⟨x', followed, alike'⟩
        have arrived := (orbit_succ_iff n x').mpr ⟨x, present, followed⟩
        rcases Nat.lt_or_eq_of_le (Nat.succ_le_of_lt before) with inner | rfl
        · exact ⟨x', k + 1, y', arrived, inner, next, alike'⟩
        · have back : y' = again := Option.some.inj (next.symm.trans atAgain)
          subst back
          exact ⟨x', i, first, arrived, order, atFirst, same.trans alike'⟩
  rcases shadow with ⟨x, _, _, present, _⟩
  exact ⟨x, present⟩

end FourBit
