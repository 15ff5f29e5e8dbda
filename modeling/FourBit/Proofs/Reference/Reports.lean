import Mathlib.Data.Nat.Find
import FourBit.Fault
import FourBit.Proofs.Reference.Language

/-! Which error is reported for lines with mistakes, however many these are: a label that comes
again or a statement without room, whichever stands first; then a want of statements; then the first
statement that spells no form. -/

namespace FourBit.Reference

def Repeats (lines : List CodeLine) (index : Nat) : Prop :=
  ∃ line ∈ lines[index]?, ∃ name ∈ line.label?, name ∈ labelsOf (lines.take index)

def Overflows (lines : List CodeLine) (index : Nat) : Prop :=
  ∃ line ∈ lines[index]?, line.statement?.isSome = true ∧
    (statementsOf (lines.take index)).length = 16

def mnemonics : List Text :=
  ["ADD", "MOV", "IN", "OUT", "JMP", "JNC", "HLT"].map String.toList

def AimsNowhere (lines : List CodeLine) (words : List Text) : Prop :=
  ∃ word target, words = [word, target] ∧
    (word.upper = "JMP".toList ∨ word.upper = "JNC".toList) ∧
    (∀ c ∈ target.head?, Text.isDigitLike c = false) ∧ target.upper ∉ labelsOf lines

/-- What is wrong with words that spell no form. Nothing is said of a statement without words. -/
inductive Mistaken (lines : List CodeLine) : List Text → FaultKind → Prop
  | mnemonic (word : Text) (operands : List Text) (unknown : word.upper ∉ mnemonics) :
      Mistaken lines (word :: operands) .unknownMnemonic
  | target (words : List Text) (nowhere : AimsNowhere lines words) :
      Mistaken lines words .undefinedLabel
  | operands (word : Text) (operands : List Text) (known : word.upper ∈ mnemonics)
      (other : ¬ AimsNowhere lines (word :: operands)) :
      Mistaken lines (word :: operands) .invalidOperand

/-- The error that lines give, with its address and the place of the line that it is about, counted
from zero. -/
inductive Reports (lines : List CodeLine) : FaultKind → Nat → Option Nat → Prop
  | duplicate (index : Nat) (again : Repeats lines index)
      (first : ∀ earlier < index, ¬ Repeats lines earlier)
      (room : ∀ full, Overflows lines full → index ≤ full) :
      Reports lines .duplicateLabel 0 (some index)
  | tooLarge (index : Nat) (full : Overflows lines index)
      (distinct : ∀ earlier ≤ index, ¬ Repeats lines earlier) :
      Reports lines .programTooLarge 16 (some index)
  | empty (distinct : ∀ index, ¬ Repeats lines index) (none : statementsOf lines = []) :
      Reports lines .parse 0 .none
  | statement (index : Nat) (line : CodeLine) (words : List Text) (kind : FaultKind)
      (distinct : ∀ index, ¬ Repeats lines index) (room : ∀ index, ¬ Overflows lines index)
      (present : lines[index]? = some line) (stated : line.statement? = some words)
      (earlier : ∀ words ∈ statementsOf (lines.take index), ∃ form, Spells lines words form)
      (stuck : ∀ form, ¬ Spells lines words form) (mistaken : Mistaken lines words kind) :
      Reports lines kind (statementsOf (lines.take index)).length (some index)

theorem mistaken_exists (lines : List CodeLine) (word : Text) (operands : List Text) :
    ∃ kind, Mistaken lines (word :: operands) kind := by
  by_cases known : word.upper ∈ mnemonics
  · by_cases nowhere : AimsNowhere lines (word :: operands)
    · exact ⟨_, .target _ nowhere⟩
    · exact ⟨_, .operands word operands known nowhere⟩
  · exact ⟨_, .mnemonic word operands known⟩

theorem filterMap_take_succ {α β : Type} (f : α → Option β) (l : List α) (count : Nat) :
    (l.take (count + 1)).filterMap f = (l.take count).filterMap f ++ (l[count]?.bind f).toList := by
  rw [List.take_add_one, List.filterMap_append]
  cases l[count]? with
  | none => rfl
  | some a => cases image : f a <;> simp [image]

theorem labelsOf_take_succ (lines : List CodeLine) (count : Nat) :
    labelsOf (lines.take (count + 1)) =
      labelsOf (lines.take count) ++ (lines[count]?.bind CodeLine.label?).toList :=
  filterMap_take_succ CodeLine.label? lines count

theorem statementsOf_take_succ (lines : List CodeLine) (count : Nat) :
    statementsOf (lines.take (count + 1)) =
      statementsOf (lines.take count) ++ (lines[count]?.bind CodeLine.statement?).toList :=
  filterMap_take_succ CodeLine.statement? lines count

theorem nodup_take_iff (lines : List CodeLine) (count : Nat) :
    (labelsOf (lines.take count)).Nodup ↔ ∀ index < count, ¬ Repeats lines index := by
  induction count with
  | zero => simp [labelsOf]
  | succ count ih =>
      have last : (labelsOf (lines.take (count + 1))).Nodup ↔
          (labelsOf (lines.take count)).Nodup ∧ ¬ Repeats lines count := by
        rw [labelsOf_take_succ]
        unfold Repeats
        cases lines[count]? with
        | none => simp
        | some line =>
            cases label : line.label? <;> simp [label, List.nodup_append, List.forall_mem_ne']
      rw [last, ih, Nat.forall_lt_succ_right]

theorem fits_take_iff (lines : List CodeLine) (count : Nat) :
    (statementsOf (lines.take count)).length ≤ 16 ↔ ∀ index < count, ¬ Overflows lines index := by
  induction count with
  | zero => simp [statementsOf]
  | succ count ih =>
      have last : (statementsOf (lines.take (count + 1))).length ≤ 16 ↔
          (statementsOf (lines.take count)).length ≤ 16 ∧ ¬ Overflows lines count := by
        rw [statementsOf_take_succ, List.length_append]
        unfold Overflows
        cases lines[count]? with
        | none => simp
        | some line =>
            cases stated : line.statement? with
            | none => simp [stated]
            | some words =>
                simp [stated]
                omega
      rw [last, ih, Nat.forall_lt_succ_right]

theorem nodup_iff (lines : List CodeLine) :
    (labelsOf lines).Nodup ↔ ∀ index, ¬ Repeats lines index := by
  have whole := nodup_take_iff lines lines.length
  rw [List.take_length] at whole
  rw [whole]
  constructor
  · rintro distinct index ⟨line, present, again⟩
    exact distinct index (List.getElem?_eq_some_iff.mp present).1 ⟨line, present, again⟩
  · exact fun distinct index _ => distinct index

theorem fits_iff (lines : List CodeLine) :
    (statementsOf lines).length ≤ 16 ↔ ∀ index, ¬ Overflows lines index := by
  have whole := fits_take_iff lines lines.length
  rw [List.take_length] at whole
  rw [whole]
  constructor
  · rintro room index ⟨line, present, full⟩
    exact room index (List.getElem?_eq_some_iff.mp present).1 ⟨line, present, full⟩
  · exact fun room index _ => room index

theorem exists_first_bad (lines : List CodeLine)
    (bad : ∃ words ∈ statementsOf lines, ∀ form, ¬ Spells lines words form) :
    ∃ (index : Nat) (line : CodeLine) (words : List Text), lines[index]? = some line ∧
      line.statement? = some words ∧
      (∀ words ∈ statementsOf (lines.take index), ∃ form, Spells lines words form) ∧
      ∀ form, ¬ Spells lines words form := by
  classical
  have somewhere : ∃ (index : Nat) (line : CodeLine) (words : List Text),
      lines[index]? = some line ∧ line.statement? = some words ∧
        ∀ form, ¬ Spells lines words form := by
    obtain ⟨words, listed, stuck⟩ := bad
    obtain ⟨line, among, stated⟩ := List.mem_filterMap.mp listed
    obtain ⟨index, present⟩ := List.getElem?_of_mem among
    exact ⟨index, line, words, present, stated, stuck⟩
  obtain ⟨index, ⟨line, words, present, stated, stuck⟩, least⟩ := Nat.findX somewhere
  refine ⟨index, line, words, present, stated, ?_, stuck⟩
  intro earlier listed
  obtain ⟨other, among, stated'⟩ := List.mem_filterMap.mp listed
  obtain ⟨place, inside, found⟩ := List.mem_take_iff_getElem.mp among
  have present' : lines[place]? = some other := List.getElem?_eq_some_iff.mpr ⟨by omega, found⟩
  by_contra missing
  exact least place (by omega) ⟨other, earlier, present', stated', not_exists.mp missing⟩

theorem reports_of_unlaid (lines : List CodeLine)
    (unlaid : ∃ index, Repeats lines index ∨ Overflows lines index) :
    ∃ kind addr place?, Reports lines kind addr place? := by
  classical
  obtain ⟨index, either, least⟩ := Nat.findX unlaid
  have distinct : ∀ earlier < index, ¬ Repeats lines earlier :=
    fun earlier below again => least earlier below (.inl again)
  by_cases again : Repeats lines index
  · refine ⟨_, _, _, .duplicate index again distinct ?_⟩
    intro full overflows
    by_contra late
    exact least full (Nat.lt_of_not_le late) (.inr overflows)
  · refine ⟨_, _, _, .tooLarge index (either.resolve_left again) ?_⟩
    intro earlier below
    rcases Nat.lt_or_eq_of_le below with before | rfl
    · exact distinct earlier before
    · exact again

end FourBit.Reference
