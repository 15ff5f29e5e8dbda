import FourBit.Proofs.Assembly.Concatenation
import FourBit.Proofs.Assembly.Relisting
import FourBit.Proofs.Rom.Padding

namespace FourBit

open Assembly Reference

namespace Reference

/-- A name of capitals, digits and underscores, without a digit in front. -/
def IsUpperName (t : Text) : Prop :=
  ∃ c rest, t = c :: rest ∧ (c.isUpper = true ∨ c = '_') ∧
    ∀ d ∈ rest, d.isUpper = true ∨ d.isDigit = true ∨ d = '_'

section Stands

variable {lines : List CodeLine} {addr number addr' number' : Nat} {words words' : List Text}

theorem Stands.line_at (stands : Stands lines addr number words) :
    ∃ line, lines[number - 1]? = some line ∧ line.statement? = some words := by
  rcases stands with ⟨before, line, after, rfl, stated, _, rfl⟩
  refine ⟨line, ?_, stated⟩
  rw [Nat.add_sub_cancel, List.getElem?_append_right (Nat.le_refl _), Nat.sub_self]
  rfl

theorem stands_of_line (index : Nat) (line : CodeLine) (present : lines[index]? = some line)
    (stated : line.statement? = some words) :
    Stands lines (statementsOf (lines.take index)).length (index + 1) words := by
  rcases List.getElem?_eq_some_iff.mp present with ⟨inside, same⟩
  refine ⟨lines.take index, line, lines.drop (index + 1), ?_, stated, rfl, ?_⟩
  · rw [← same, ← List.drop_eq_getElem_cons inside, List.take_append_drop]
  · rw [List.length_take_of_le (Nat.le_of_lt inside)]

theorem Stands.within (stands : Stands lines addr number words) :
    addr < (statementsOf lines).length := by
  rcases stands with ⟨before, line, after, rfl, stated, rfl, _⟩
  rw [statements_append, Layout.statements_cons, stated, List.length_append, List.length_append,
    Option.toList_some, List.length_singleton]
  omega

theorem Stands.addr_lt (stands : Stands lines addr number words)
    (later : Stands lines addr' number' words') (below : number < number') : addr < addr' := by
  rcases stands with ⟨before, line, after, split, stated, rfl, rfl⟩
  rcases later with ⟨before', line', after', split', _, rfl, rfl⟩
  have first : before ++ [line] <+: lines := ⟨after, by rw [split, List.append_assoc]; rfl⟩
  have second : before' <+: lines := ⟨line' :: after', split'.symm⟩
  have shorter : (before ++ [line]).length ≤ before'.length := by
    rw [List.length_append, List.length_singleton]
    omega
  rcases List.prefix_of_prefix_length_le first second shorter with ⟨between, rfl⟩
  have one : (statementsOf [line]).length = 1 := by
    rw [statementsOf, List.filterMap_cons, stated]
    rfl
  rw [statements_append, statements_append, List.length_append, List.length_append, one]
  omega

theorem Stands.number_lt (stands : Stands lines addr number words)
    (later : Stands lines addr' number' words') (below : addr < addr') : number < number' := by
  rcases Nat.lt_trichotomy number number' with less | rfl | greater
  · exact less
  · rcases stands with ⟨before, line, after, split, _, rfl, rfl⟩
    rcases later with ⟨before', line', after', split', _, rfl, same⟩
    have size : before.length = before'.length := by omega
    cases (List.append_inj (split.symm.trans split') size).1
    omega
  · have above := later.addr_lt stands greater
    omega

theorem Stands.unique (stands : Stands lines addr number words)
    (again : Stands lines addr number' words') : number = number' ∧ words = words' := by
  have line : number = number' := by
    rcases Nat.lt_trichotomy number number' with less | same | greater
    · exact (Nat.lt_irrefl addr (stands.addr_lt again less)).elim
    · exact same
    · exact (Nat.lt_irrefl addr (again.addr_lt stands greater)).elim
  subst line
  rcases stands.line_at with ⟨here, present, stated⟩
  rcases again.line_at with ⟨there, present', stated'⟩
  cases present.symm.trans present'
  exact ⟨rfl, Option.some.inj (stated.symm.trans stated')⟩

end Stands

theorem IsName.upperName {name : Text} (named : IsName name) (same : name.upper = name) :
    IsUpperName name := by
  have table := Text.of_sevenBit (fun c => c.toUpper = c →
    (Line.isNameStart c = true → c.isUpper = true ∨ c = '_') ∧
      (Line.isNamePart c = true → c.isUpper = true ∨ c.isDigit = true ∨ c = '_'))
    (by decide +kernel)
  have parts := named.parts
  have capital : ∀ c ∈ name, c.toUpper = c := by
    rw [named.upper_eq] at same
    exact List.map_inj_left.mp (same.trans (List.map_id name).symm)
  rcases named with ⟨c, rest, rfl, start, _⟩
  rcases List.forall_mem_cons.mp parts with ⟨first, others⟩
  rcases List.forall_mem_cons.mp capital with ⟨large, larger⟩
  refine ⟨c, rest, rfl, (table c (Line.sevenBit_of_isNamePart c first) large).1 start, ?_⟩
  intro d inside
  exact (table d (Line.sevenBit_of_isNamePart d (others d inside)) (larger d inside)).2
    (others d inside)

end Reference

/-- A program is made of the statements of a source, whose lines are given: their instructions stand
one after another from the address zero on, each with its word and the line it comes from, and the
memory holds the words and behind them jumps to themselves. -/
structure Program.Represents (program : Program) (source : Text) (lines : List CodeLine) : Prop where
  present : 1 ≤ program.instructions.length
  fits : program.instructions.length ≤ 16
  addresses : program.instructions.map SourceInstruction.addr =
    List.range program.instructions.length
  keyed : ∀ addr : Nat, program.at? addr = program.instructions[addr]?
  size : program.words.length = program.instructions.length
  encoded : ∀ (addr : Nat) (entry : SourceInstruction), program.instructions[addr]? = some entry →
    ∃ word : Fin 256, program.words[addr]? = some word ∧
      (word : Nat) = 16 * entry.instruction.opcode.code + entry.instruction.operand ∧
      Instruction.decode (word : Nat) = .ok entry.instruction
  increasing : program.instructions.Pairwise fun earlier later => earlier.line < later.line
  located : ∀ entry ∈ program.instructions, 1 ≤ entry.line ∧
    ∃ raw, (Text.lines source)[entry.line - 1]? = some raw ∧ entry.source = raw.trim
  stated : ∀ (index : Nat) (line : CodeLine) (words : List Text), lines[index]? = some line →
    line.statement? = some words →
    ∃ entry ∈ program.instructions, entry.line = index + 1 ∧
      (∀ other ∈ program.instructions, other.line = index + 1 → other = entry) ∧
      ∃ form, Spells lines words form ∧ entry.instruction = instructionOf entry.addr form
  silent : ∀ (index : Nat) (line : CodeLine), lines[index]? = some line →
    line.statement? = none → ∀ entry ∈ program.instructions, entry.line ≠ index + 1
  labelled : ∀ name addr, (name, addr) ∈ program.labels →
    IsUpperName name ∧ addr ≤ program.instructions.length
  stored : ∃ rom, program.rom = .ok rom ∧
    (∀ (addr : Nat) (word : Fin 256), program.words[addr]? = some word →
      rom.read addr = .ok (.byte word)) ∧
    ∀ addr : Nat, program.instructions.length ≤ addr → addr < 16 →
      ∃ word : Fin 256, rom.read addr = .ok (.byte word) ∧
        Instruction.decode (word : Nat) = .ok ⟨.jmp, Fin.ofNat 16 addr⟩

section Assembled

variable (source : Text) (program : Program) (lines : List CodeLine)
  (assembled : assemble source = .ok program) (reads : Reads source lines)

include assembled

theorem instructions_present : 1 ≤ program.instructions.length := by
  have present := (denotes_of_assemble source program assembled).present
  rw [← length_program_words source program assembled, Program.words, List.length_map] at present
  exact present

include reads

theorem entry_of_line (addr : Nat) (entry : SourceInstruction)
    (present : program.instructions[addr]? = some entry) :
    ∃ words form, Stands lines addr entry.line words ∧ Spells lines words form ∧
      entry.instruction = instructionOf addr form ∧
      ∃ raw, (Text.lines source)[entry.line - 1]? = some raw ∧ entry.source = raw.trim := by
  rcases entry_stands source program assembled addr entry present with
    ⟨number, raw, words, form, given, rfl, text, stands, spells, same⟩
  rw [(reads_source_iff source lines).mp reads] at stands spells
  exact ⟨words, form, stands, spells, same, raw, given, text⟩

theorem lines_increase (addr addr' : Nat) (earlier later : SourceInstruction)
    (present : program.instructions[addr]? = some earlier)
    (present' : program.instructions[addr']? = some later) (below : addr < addr') :
    earlier.line < later.line := by
  rcases entry_of_line source program lines assembled reads addr earlier present with
    ⟨_, _, stands, _⟩
  rcases entry_of_line source program lines assembled reads addr' later present' with
    ⟨_, _, stands', _⟩
  exact stands.number_lt stands' below

theorem entry_at_line (index : Nat) (line : CodeLine) (words : List Text)
    (found : lines[index]? = some line) (stated : line.statement? = some words) :
    ∃ addr entry form, program.instructions[addr]? = some entry ∧ entry.addr = addr ∧
      entry.line = index + 1 ∧ Spells lines words form ∧
      entry.instruction = instructionOf addr form := by
  have stands := stands_of_line index line found stated
  generalize (statementsOf (lines.take index)).length = addr at stands
  have inside := stands.within
  rw [← (reads_source_iff source lines).mp reads, ← length_program_words source program assembled,
    Program.words, List.length_map] at inside
  have present := List.getElem?_eq_getElem inside
  rcases entry_of_line source program lines assembled reads addr _ present with
    ⟨words', form, stands', spells, same, _⟩
  rcases stands'.unique stands with ⟨number, rfl⟩
  exact ⟨addr, _, form, present, (entry_placed source program assembled addr _ present).1, number,
    spells, same⟩

end Assembled

/-- A source that is assembled is represented by its program. -/
theorem assembled_represents (source : Text) (program : Program) (lines : List CodeLine)
    (assembled : assemble source = .ok program) (reads : Reads source lines) :
    program.Represents source lines := by
  have size : program.words.length = program.instructions.length := List.length_map _
  have fits := length_words_le source program assembled
  have increase := lines_increase source program lines assembled reads
  constructor
  · exact instructions_present source program assembled
  · exact size ▸ fits
  · exact addresses source program assembled
  · exact program_at source program assembled
  · exact size
  · intro addr entry present
    refine ⟨entry.instruction.byte, program.word_of_entry addr entry present, rfl, ?_⟩
    simp only [Instruction.decode_byte, Instruction.ofByte?_byte]
  · apply List.pairwise_iff_getElem.mpr
    intro addr addr' bound bound' below
    exact increase addr addr' _ _ (List.getElem?_eq_getElem bound)
      (List.getElem?_eq_getElem bound') below
  · intro entry listed
    rcases List.getElem?_of_mem listed with ⟨addr, present⟩
    rcases entry_of_line source program lines assembled reads addr entry present with
      ⟨_, _, ⟨_, _, _, _, _, _, number⟩, _, _, raw, given, text⟩
    exact ⟨by omega, raw, given, text⟩
  · intro index line words found stated
    rcases entry_at_line source program lines assembled reads index line words found stated with
      ⟨addr, entry, form, present, place, number, spells, same⟩
    refine ⟨entry, List.mem_of_getElem? present, number, ?_, form, spells, place.symm ▸ same⟩
    intro other listed again
    rcases List.getElem?_of_mem listed with ⟨addr', present'⟩
    rcases Nat.lt_trichotomy addr addr' with less | rfl | greater
    · have later := increase addr addr' entry other present present' less
      omega
    · exact Option.some.inj (present'.symm.trans present)
    · have earlier := increase addr' addr other entry present' present greater
      omega
  · intro index line found unstated entry listed number
    rcases List.getElem?_of_mem listed with ⟨addr, present⟩
    rcases entry_of_line source program lines assembled reads addr entry present with
      ⟨words, _, stands, _⟩
    rcases stands.line_at with ⟨line', found', stated⟩
    rw [number, Nat.add_sub_cancel, found] at found'
    cases found'
    cases unstated.symm.trans stated
  · intro name addr known
    rcases label_named source program assembled name addr known with ⟨named, same⟩
    have within := ((mem_labels_iff source program assembled name addr).mp known).within
    rw [← length_program_words source program assembled, size] at within
    exact ⟨named.upperName same, within⟩
  · exact size ▸ program.rom_stores fits

/-- A label-only line at each end, and a label and a comment on a line with its statement. -/
theorem assembled_represents_countdown :
    ∃ program lines, assemble countdown = .ok program ∧ Reads countdown lines ∧
      lines.length = 8 ∧ program.instructions.map SourceInstruction.line = [2, 3, 4, 5, 6, 7] ∧
      program.Represents countdown lines := by
  have evaluated : (assemble countdown).toOption.map
      (fun program => program.instructions.map SourceInstruction.line) =
        some [2, 3, 4, 5, 6, 7] := by decide +kernel
  have reads := (reads_source_iff countdown _).mpr rfl
  cases assembled : assemble countdown with
  | error rejection =>
      rw [assembled] at evaluated
      cases evaluated
  | ok program =>
      rw [assembled] at evaluated
      have represents := assembled_represents countdown program _ assembled reads
      exact ⟨program, _, rfl, reads, by decide +kernel, Option.some.inj evaluated, represents⟩

end FourBit
