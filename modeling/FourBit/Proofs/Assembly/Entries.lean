import FourBit.Proofs.Assembly.Language

namespace FourBit

/-- Some words are the statement at an address, on a line counted from one. -/
def Reference.Stands (lines : List CodeLine) (addr number : Nat) (words : List Text) : Prop :=
  ∃ before line after, lines = before ++ line :: after ∧ line.statement? = some words ∧
    addr = (statementsOf before).length ∧ number = before.length + 1

namespace Assembly

open Reference

theorem Line.read_number (number : Nat) (raw : Text) : (Line.read number raw).number = number := by
  simp only [Line.read]
  split <;> rfl

theorem Line.read_source (number : Nat) (raw : Text) :
    (Line.read number raw).source = raw.trim := by
  simp only [Line.read]
  split <;> rfl

theorem readLines_at (source : Text) (index : Nat) (line : Line)
    (present : (readLines source)[index]? = some line) :
    ∃ raw, (Text.lines source)[index]? = some raw ∧ line = Line.read (index + 1) raw := by
  rw [readLines, List.getElem?_map, List.getElem?_zipIdx, Option.map_map] at present
  rcases Option.map_eq_some_iff.mp present with ⟨raw, found, same⟩
  rw [Nat.zero_add] at same
  exact ⟨raw, found, same.symm⟩

theorem Layout.line_of_statement (first place : Nat) (lines : List Line) (statement : Statement)
    (present : (statementsFrom first lines)[place]? = some statement) :
    ∃ before line after, lines = before ++ line :: after ∧ line.body.isEmpty = false ∧
      place = (statementsOf (before.map Line.contents)).length ∧
      statement = ⟨first + place, line.number, line.source, line.body⟩ := by
  induction lines generalizing first place with
  | nil => cases present
  | cons line rest ih =>
      unfold statementsFrom at present
      split at present
      · rename_i blank
        rcases ih first place present with ⟨before, found, after, rfl, stated, rfl, same⟩
        refine ⟨line :: before, found, after, rfl, stated, ?_, same⟩
        simp only [List.map_cons, statementsOf, List.filterMap_cons, Line.contents, blank, if_true]
      · rename_i stated
        cases place with
        | zero =>
            cases present
            exact ⟨[], line, rest, rfl, by simpa using stated, rfl, rfl⟩
        | succ place =>
            rcases ih (first + 1) place present with ⟨before, found, after, rfl, stated', rfl, same⟩
            refine ⟨line :: before, found, after, rfl, stated', ?_, ?_⟩
            · simp [statementsOf, Line.contents, stated]
            · rw [same, Nat.add_assoc, Nat.add_comm 1]

theorem stands_of_statement (source : Text) (addr : Nat) (statement : Statement)
    (present : (layoutOf source).statements[addr]? = some statement) :
    ∃ index raw, (Text.lines source)[index]? = some raw ∧ statement.line = index + 1 ∧
      statement.source = raw.trim ∧
      Stands ((readLines source).map Line.contents) addr (index + 1) (tokens statement.body) := by
  have laid : (layoutOf source).statements = Layout.statementsFrom 0 (readLines source) := rfl
  rw [laid] at present
  rcases Layout.line_of_statement 0 addr _ statement present with
    ⟨before, line, after, split, stated, place, rfl⟩
  have found : (readLines source)[before.length]? = some line := by
    rw [split, List.getElem?_append_right (Nat.le_refl _), Nat.sub_self]
    rfl
  rcases readLines_at source before.length line found with ⟨raw, given, rfl⟩
  refine ⟨before.length, raw, given, Line.read_number _ raw, Line.read_source _ raw, ?_⟩
  refine ⟨before.map Line.contents, (Line.read (before.length + 1) raw).contents,
    after.map Line.contents, ?_, ?_, place, ?_⟩
  · rw [split, List.map_append, List.map_cons]
  · simp only [Line.contents, stated, Bool.false_eq_true, if_false]
  · rw [List.length_map]

theorem find_eq_getElem (entries : List SourceInstruction) (addr : Nat)
    (placed : ∀ (place : Nat) (entry : SourceInstruction), entries[place]? = some entry →
      entry.addr = place) :
    entries.find? (fun entry => (entry.addr : Int) == addr) = entries[addr]? := by
  have single (place : Nat) (entry : SourceInstruction) (present : entries[place]? = some entry) :
      ((entry.addr : Int) == addr) = true ↔ place = addr := by
    rw [placed place entry present, beq_iff_eq, Int.ofNat_inj]
  cases found : entries[addr]? with
  | none =>
      apply List.find?_eq_none.mpr
      intro entry listed matched
      rcases List.getElem?_of_mem listed with ⟨place, present⟩
      have same := (single place entry present).mp matched
      rw [same, found] at present
      cases present
  | some entry =>
      rcases List.getElem?_eq_some_iff.mp found with ⟨inside, same⟩
      apply List.find?_eq_some_iff_getElem.mpr
      refine ⟨(single addr entry found).mpr rfl, addr, inside, same, ?_⟩
      intro place before
      have earlier := List.getElem?_eq_getElem (Nat.lt_trans before inside)
      have apart := (single place _ earlier).not.mpr (Nat.ne_of_lt before)
      simpa using apart

section Assembled

variable (source : Text) (program : Program) (assembled : assemble source = .ok program)

include assembled

theorem entry_at (addr : Nat) (entry : SourceInstruction)
    (present : program.instructions[addr]? = some entry) :
    ∃ statement form, (layoutOf source).statements[addr]? = some statement ∧
      Spells ((readLines source).map Line.contents) (tokens statement.body) form ∧
      entry = ⟨addr, instructionOf addr form, statement.line, statement.source,
        statement.body⟩ := by
  rcases (assemble_ok_iff source program).mp assembled with ⟨sound, _, labels, entries⟩
  rcases (mapM_ok_iff _ _ _).mp entries with ⟨size, each⟩
  have inside := (List.getElem?_eq_some_iff.mp present).1
  have laid := List.getElem?_eq_getElem (size ▸ inside)
  rcases each addr _ laid with ⟨entry', found, answered⟩
  cases present.symm.trans found
  rw [labels] at answered
  rcases (assemble_statement_iff source sound _ entry).mp answered with ⟨form, spells, rfl⟩
  have place := Layout.statementsFrom_addr 0 (readLines source) addr _ laid
  rw [Nat.zero_add] at place
  rw [place]
  exact ⟨_, form, laid, spells, rfl⟩

/-- The entry at an address is the statement there, with the number and the text of its line. -/
theorem entry_stands (addr : Nat) (entry : SourceInstruction)
    (present : program.instructions[addr]? = some entry) :
    ∃ number raw words form, (Text.lines source)[number - 1]? = some raw ∧
      entry.line = number ∧ entry.source = raw.trim ∧
      Stands ((readLines source).map Line.contents) addr number words ∧
      Spells ((readLines source).map Line.contents) words form ∧
      entry.instruction = instructionOf addr form := by
  rcases entry_at source program assembled addr entry present with
    ⟨statement, form, laid, spells, rfl⟩
  rcases stands_of_statement source addr statement laid with ⟨index, raw, given, line, text, stands⟩
  exact ⟨index + 1, raw, _, form, given, line, text, stands, spells, rfl⟩

theorem mem_labels_iff (name : Text) (addr : Nat) :
    (name, addr) ∈ program.labels ↔ Defines ((readLines source).map Line.contents) name addr := by
  rcases (assemble_ok_iff source program).mp assembled with ⟨_, _, labels, _⟩
  have members := Layout.mem_labelsFrom_iff 0 (readLines source) name addr
  rw [labels]
  simpa [layoutOf, Layout.extend, Layout.empty, Layout.next] using members

theorem length_words_le : program.words.length ≤ 16 := by
  have size := length_words source program assembled
  rw [List.length_map] at size
  rw [size]
  exact (denotes_of_assemble source program assembled).fits

theorem program_at (addr : Nat) : program.at? addr = program.instructions[addr]? := by
  apply find_eq_getElem
  intro place entry present
  rcases entry_at source program assembled place entry present with ⟨_, _, _, _, rfl⟩
  rfl

end Assembled

end Assembly

end FourBit
