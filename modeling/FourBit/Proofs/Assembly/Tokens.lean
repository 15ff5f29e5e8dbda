import Mathlib.Data.List.TakeWhile
import FourBit.Proofs.Reference.Language

namespace FourBit.Assembly

open Reference

theorem isSeparator_of_isBlank (c : Char) (blank : Text.isBlank c = true) :
    isSeparator c = true := by
  simp only [isSeparator, blank, Bool.true_or]

theorem tokens_nil : tokens [] = [] := rfl

theorem tokens_present (body : Text) : ∀ t ∈ tokens body, t ≠ [] := by
  intro t inside
  simpa using (List.mem_filter.mp inside).2

theorem tokens_append_separator (left right : Text) (c : Char) (separating : isSeparator c = true) :
    tokens (left ++ c :: right) = tokens left ++ tokens right := by
  unfold tokens
  rw [List.splitOnP_append_cons left right separating, List.filter_append]

theorem tokens_cons_separator (c : Char) (rest : Text) (separating : isSeparator c = true) :
    tokens (c :: rest) = tokens rest :=
  tokens_append_separator [] rest c separating

theorem tokens_gap (gap : Text) (separating : ∀ c ∈ gap, isSeparator c = true) :
    tokens gap = [] := by
  induction gap with
  | nil => exact tokens_nil
  | cons c gap ih =>
      rw [tokens_cons_separator c gap (separating c List.mem_cons_self)]
      exact ih fun d inside => separating d (List.mem_cons_of_mem c inside)

theorem tokens_gap_append (gap rest : Text) (separating : ∀ c ∈ gap, isSeparator c = true) :
    tokens (gap ++ rest) = tokens rest := by
  induction gap with
  | nil => rfl
  | cons c gap ih =>
      rw [List.cons_append, tokens_cons_separator c _ (separating c List.mem_cons_self)]
      exact ih fun d inside => separating d (List.mem_cons_of_mem c inside)

theorem tokens_append_gap (rest gap : Text) (separating : ∀ c ∈ gap, isSeparator c = true) :
    tokens (rest ++ gap) = tokens rest := by
  cases gap with
  | nil => rw [List.append_nil]
  | cons c gap =>
      have behind := tokens_gap gap fun d inside => separating d (List.mem_cons_of_mem c inside)
      rw [tokens_append_separator rest gap c (separating c List.mem_cons_self), behind,
        List.append_nil]

theorem tokens_solid (word : Text) (present : word ≠ [])
    (solid : ∀ c ∈ word, isSeparator c = false) : tokens word = [word] := by
  rw [tokens, List.splitOnP_eq_singleton solid]
  exact List.filter_eq_self.mpr (by simpa using present)

theorem tokens_word (word rest : Text) (present : word ≠ [])
    (solid : ∀ c ∈ word, isSeparator c = false) (apart : ∀ c ∈ rest.head?, isSeparator c = true) :
    tokens (word ++ rest) = word :: tokens rest := by
  cases rest with
  | nil => rw [List.append_nil, tokens_solid word present solid, tokens_nil]
  | cons c rest =>
      have separating := apart c rfl
      rw [tokens_append_separator word rest c separating, tokens_solid word present solid,
        tokens_cons_separator c rest separating, List.singleton_append]

theorem tokens_front (front rest : Text) (present : front ≠ [])
    (solid : ∀ c ∈ front, isSeparator c = false) :
    ∃ more others, tokens (front ++ rest) = (front ++ more) :: others := by
  have split : rest = rest.takeWhile (!isSeparator ·) ++ rest.dropWhile (!isSeparator ·) :=
    List.takeWhile_append_dropWhile.symm
  have joined : ∀ c ∈ front ++ rest.takeWhile (!isSeparator ·), isSeparator c = false := by
    refine List.forall_mem_append.mpr ⟨solid, ?_⟩
    intro c inside
    simpa using List.mem_takeWhile_imp inside
  have apart : ∀ c ∈ (rest.dropWhile (!isSeparator ·)).head?, isSeparator c = true := by
    intro c first
    have stops := List.head?_dropWhile_not (!isSeparator ·) rest
    rw [first] at stops
    simpa using stops
  refine ⟨rest.takeWhile (!isSeparator ·), tokens (rest.dropWhile (!isSeparator ·)), ?_⟩
  calc
    tokens (front ++ rest)
        = tokens (front ++ rest.takeWhile (!isSeparator ·) ++ rest.dropWhile (!isSeparator ·)) := by
      rw [List.append_assoc, ← split]
    _ = (front ++ rest.takeWhile (!isSeparator ·)) :: tokens (rest.dropWhile (!isSeparator ·)) :=
      tokens_word _ _ (by simp [present]) joined apart

theorem tokens_of_spaced (body : Text) (words : List Text) (spaced : Spaced body words) :
    tokens body = words := by
  induction spaced with
  | gap gap separating => exact tokens_gap gap separating
  | word gap word rest words separating present solid apart more ih =>
      rw [List.append_assoc, tokens_gap_append gap _ separating,
        tokens_word word rest present solid apart, ih]

theorem spaced_cons_separator (c : Char) (rest : Text) (words : List Text)
    (separating : isSeparator c = true) (spaced : Spaced rest words) :
    Spaced (c :: rest) words := by
  have longer (gap : Text) (others : ∀ d ∈ gap, isSeparator d = true) :
      ∀ d ∈ c :: gap, isSeparator d = true :=
    List.forall_mem_cons.mpr ⟨separating, others⟩
  cases spaced with
  | gap gap others => exact .gap (c :: rest) (longer rest others)
  | word gap word rest words others present solid apart more =>
      exact .word (c :: gap) word rest words (longer gap others) present solid apart more

theorem spaced_cons_solid (c : Char) (rest : Text) (words : List Text)
    (solid : isSeparator c = false) (spaced : Spaced rest words) :
    ∃ longer, Spaced (c :: rest) longer := by
  have single : ∀ d ∈ [c], isSeparator d = false := by simpa using solid
  by_cases apart : ∀ d ∈ rest.head?, isSeparator d = true
  · exact ⟨[c] :: words,
      .word [] [c] rest words (by simp) (List.cons_ne_nil c []) single apart spaced⟩
  · cases spaced with
    | gap gap separating =>
        exact (apart fun d first => separating d (List.mem_of_head? first)).elim
    | word gap word rest words separating present others apart' more =>
        cases gap with
        | cons d gap =>
            refine (apart ?_).elim
            intro e first
            cases first
            exact separating d List.mem_cons_self
        | nil =>
            refine ⟨(c :: word) :: words, ?_⟩
            exact .word [] (c :: word) rest words (by simp) (List.cons_ne_nil c word)
              (List.forall_mem_cons.mpr ⟨solid, others⟩) apart' more

theorem spaced_exists (body : Text) : ∃ words, Spaced body words := by
  induction body with
  | nil => exact ⟨[], .gap [] (by simp)⟩
  | cons c rest ih =>
      rcases ih with ⟨words, spaced⟩
      cases separating : isSeparator c with
      | true => exact ⟨words, spaced_cons_separator c rest words separating spaced⟩
      | false => exact spaced_cons_solid c rest words separating spaced

theorem tokens_eq_iff (body : Text) (words : List Text) :
    tokens body = words ↔ Spaced body words := by
  constructor
  · intro same
    rcases spaced_exists body with ⟨others, spaced⟩
    have read := tokens_of_spaced body others spaced
    rw [← same, read]
    exact spaced
  · exact tokens_of_spaced body words

end FourBit.Assembly
