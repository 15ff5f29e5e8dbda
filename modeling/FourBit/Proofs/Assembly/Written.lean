import FourBit.Proofs.Assembly.Entries
import FourBit.Proofs.Assembly.Names
import FourBit.Rom.Listing

/-! Instructions written out, one on each line and perhaps with a label: they are assembled to
themselves, up to the operand of a form that has none. -/

namespace FourBit

open Assembly Reference

/-- A text that is a statement on a line of its own: it is not blank, and there is no comment, label
or end of the line in it. -/
structure Bare (t : Text) : Prop where
  plain : (t.all fun c => c != ';' && c != '#' && c != ':' && c != '\n') = true
  ink : t.all Text.isBlank = false

namespace Bare

variable {t : Text} (bare : Bare t)

include bare

theorem apart : ∀ c ∈ t, c ≠ ';' ∧ c ≠ '#' ∧ c ≠ ':' ∧ c ≠ '\n' := by
  simpa [and_assoc] using List.all_eq_true.mp bare.plain

theorem uncommented : ∀ c ∈ t, c ≠ ';' ∧ c ≠ '#' := by
  intro c inside
  have apart := bare.apart c inside
  exact ⟨apart.1, apart.2.1⟩

theorem single : '\n' ∉ t := by
  intro inside
  exact (bare.apart _ inside).2.2.2 rfl

theorem stated : Stated t (some (tokens t)) := by
  obtain ⟨c, inside, ink⟩ : ∃ c ∈ t, Text.isBlank c = false := by simpa using bare.ink
  exact .words t c _ inside ink ((tokens_eq_iff t _).mp rfl)

theorem reads : CodeLine.Reads t ⟨none, some (tokens t)⟩ := by
  have unlabelled : Labelled t none t := by
    apply Labelled.plain
    intro margin name body _ _ split
    have colon : ':' ∈ t := by simp [split]
    exact (bare.apart _ colon).2.2.1 rfl
  refine ⟨t, t, ⟨[], ?_, bare.uncommented, ?_⟩, unlabelled, bare.stated⟩
  · rw [List.append_nil]
  · simp

theorem reads_label (name : Text) (named : IsName name) :
    CodeLine.Reads (name ++ ':' :: t) ⟨some name.upper, some (tokens t)⟩ := by
  have clear : ∀ c ∈ name, c ≠ ';' ∧ c ≠ '#' := by
    intro c inside
    have apart := named.clear c inside
    exact ⟨apart.1, apart.2.1⟩
  have uncommented : ∀ c ∈ name ++ ':' :: t, c ≠ ';' ∧ c ≠ '#' := by
    refine List.forall_mem_append.mpr ⟨clear, List.forall_mem_cons.mpr ⟨?_, bare.uncommented⟩⟩
    decide
  refine ⟨_, t, ⟨[], ?_, uncommented, ?_⟩, .label [] name t ?_ named, bare.stated⟩
  · exact (List.append_nil _).symm
  · simp
  · simp

theorem indent (gap : Text) (spaces : ∀ c ∈ gap, c = ' ') : Bare (gap ++ t) := by
  constructor
  · rw [List.all_append, bare.plain, Bool.and_true]
    apply List.all_eq_true.mpr
    intro c inside
    rw [spaces c inside]
    decide
  · rw [List.all_append, bare.ink, Bool.and_false]

end Bare

theorem tokens_indent (gap t : Text) (spaces : ∀ c ∈ gap, c = ' ') :
    tokens (gap ++ t) = tokens t := by
  apply tokens_gap_append
  intro c inside
  rw [spaces c inside]
  decide

namespace Instruction

def canonical (i : Instruction) : Instruction :=
  if i.opcode.isRegisterOnly then ⟨i.opcode, 0⟩ else i

def toForm (i : Instruction) : Form :=
  match i.opcode with
  | .addA => .add .a i.operand
  | .movAB => .copy .a
  | .inA => .input .a
  | .movA => .load .a i.operand
  | .movBA => .copy .b
  | .addB => .add .b i.operand
  | .inB => .input .b
  | .movB => .load .b i.operand
  | .outB => .outputB
  | .outIm => .output i.operand
  | .jnc => .jumpNoCarry i.operand
  | .jmp => .jump i.operand

def words (i : Instruction) : List Text :=
  let value := Text.decimal i.operand
  match i.opcode with
  | .addA => ["ADD".toList, ['A'], value]
  | .movAB => ["MOV".toList, ['A'], ['B']]
  | .inA => ["IN".toList, ['A']]
  | .movA => ["MOV".toList, ['A'], value]
  | .movBA => ["MOV".toList, ['B'], ['A']]
  | .addB => ["ADD".toList, ['B'], value]
  | .inB => ["IN".toList, ['B']]
  | .movB => ["MOV".toList, ['B'], value]
  | .outB => ["OUT".toList, ['B']]
  | .outIm => ["OUT".toList, value]
  | .jnc => ["JNC".toList, value]
  | .jmp => ["JMP".toList, value]

theorem tokens_text (i : Instruction) : tokens i.text = i.words := by
  rcases i with ⟨opcode, n⟩
  cases opcode <;> revert n <;> decide +kernel

theorem literal_decimal (n : Fin 16) : IsLiteral (Text.decimal n) n := by
  unfold IsLiteral
  revert n
  decide +kernel

theorem digit_decimal (n : Fin 16) :
    ∃ c rest, Text.decimal n = c :: rest ∧ Text.isDigitLike c = true := by
  have each : ∀ n : Fin 16, (Text.decimal n).head?.any Text.isDigitLike = true := by decide +kernel
  have first := each n
  cases digits : Text.decimal n with
  | nil => simp [digits] at first
  | cons c rest => exact ⟨c, rest, rfl, by simpa [digits] using first⟩

theorem aims_decimal (lines : List CodeLine) (n : Fin 16) : Aims lines (Text.decimal n) n := by
  have valued := literal_decimal n
  rcases digit_decimal n with ⟨c, rest, digits, digit⟩
  rw [digits] at valued ⊢
  exact .number c rest n digit valued

theorem spells_words (lines : List CodeLine) (i : Instruction) : Spells lines i.words i.toForm := by
  rcases i with ⟨opcode, n⟩
  have valued := literal_decimal n
  have aims := aims_decimal lines n
  cases opcode with
  | addA => exact .add _ _ _ .a n rfl rfl valued
  | movAB => exact .copyAB _ _ _ rfl rfl rfl
  | inA => exact .input _ _ .a rfl rfl
  | movA => exact .load _ _ _ .a n rfl rfl valued
  | movBA => exact .copyBA _ _ _ rfl rfl rfl
  | addB => exact .add _ _ _ .b n rfl rfl valued
  | inB => exact .input _ _ .b rfl rfl
  | movB => exact .load _ _ _ .b n rfl rfl valued
  | outB => exact .outputB _ _ rfl rfl
  | outIm => exact .output _ _ n rfl valued
  | jnc => exact .jumpNoCarry _ _ n rfl aims
  | jmp => exact .jump _ _ n rfl aims

theorem spells_text (lines : List CodeLine) (i : Instruction) :
    Spells lines (tokens i.text) i.toForm :=
  i.tokens_text ▸ spells_words lines i

theorem bare_text (i : Instruction) : Bare i.text := by
  obtain ⟨opcode, n⟩ := i
  constructor
  · cases opcode <;> revert n <;> decide +kernel
  · cases opcode <;> revert n <;> decide +kernel

theorem instructionOf_toForm (addr : Nat) (i : Instruction) :
    instructionOf addr i.toForm = i.canonical := by
  rcases i with ⟨opcode, n⟩
  cases opcode <;> rfl

theorem canonical_instructionOf (addr : Nat) (form : Form) :
    (instructionOf addr form).canonical = instructionOf addr form := by
  cases form with
  | add register n | load register n | copy register | input register => cases register <;> rfl
  | outputB | output n | halt | jump n | jumpNoCarry n => rfl

theorem word_toForm (addr : Nat) (i : Instruction) (inside : addr < 16) :
    i.toForm.word addr = i.canonical.byte := by
  rw [← byte_instructionOf addr i.toForm inside, instructionOf_toForm]

end Instruction

def sourceOf (listing : List Text) : Text := Text.unlines (listing.map (·.drop 14))

theorem length_address (addr : Nat) (inside : addr < 16) :
    (Text.alignRight 2 (Text.decimal addr)).length = 2 := by
  have each : ∀ addr : Fin 16,
      (Text.alignRight 2 (Text.decimal (addr : Nat))).length = 2 := by decide +kernel
  exact each ⟨addr, inside⟩

theorem length_listingMargin (addr : Nat) (byte : Fin 256) (inside : addr < 16) :
    (listingMargin addr byte).length = 14 := by
  have bits : ∀ byte : Fin 256, (Text.binary 8 byte).length = 8 := by decide +kernel
  simp only [listingMargin, List.length_append, length_address addr inside, bits byte,
    List.length_cons, List.length_nil]

theorem drop_listingMargin (addr : Nat) (byte : Fin 256) (t : Text) (inside : addr < 16) :
    (listingMargin addr byte ++ t).drop 14 = t := by
  rw [← length_listingMargin addr byte inside]
  exact List.drop_left

namespace Reference

def Full (lines : List CodeLine) : Prop := ∀ line ∈ lines, ∃ words, line.statement? = some words

theorem Full.statements {lines : List CodeLine} (full : Full lines) :
    (statementsOf lines).map some = lines.map CodeLine.statement? := by
  induction lines with
  | nil => rfl
  | cons line rest ih =>
      rcases List.forall_mem_cons.mp full with ⟨⟨words, stated⟩, others⟩
      have tail := ih others
      unfold statementsOf at tail ⊢
      simp only [List.filterMap_cons, stated, List.map_cons, tail]

theorem Full.length_statements {lines : List CodeLine} (full : Full lines) :
    (statementsOf lines).length = lines.length := by
  simpa using congrArg List.length full.statements

theorem Full.statement_at {lines : List CodeLine} (full : Full lines) (addr : Nat)
    (words : List Text) :
    (statementsOf lines)[addr]? = some words ↔
      ∃ line, lines[addr]? = some line ∧ line.statement? = some words := by
  have same := congrArg (·[addr]?) full.statements
  simp only [List.getElem?_map] at same
  rw [← Option.map_eq_some_iff, ← same]
  simp

theorem Full.defines_iff {lines : List CodeLine} (full : Full lines) (name : Text) (addr : Nat) :
    Defines lines name addr ↔ ∃ line, lines[addr]? = some line ∧ line.label? = some name := by
  induction lines generalizing addr with
  | nil => simp [Defines]
  | cons line rest ih =>
      rcases List.forall_mem_cons.mp full with ⟨⟨words, stated⟩, others⟩
      have size : line.statement?.toList.length = 1 := by rw [stated]; rfl
      rw [Layout.defines_cons_iff, size]
      simp only [ih others]
      cases addr with
      | zero =>
          have behind (later : Nat) : 0 ≠ 1 + later := by omega
          simp [behind]
      | succ addr => simp [Nat.add_comm 1]

theorem Full.number {lines : List CodeLine} (full : Full lines) (addr number : Nat)
    (words : List Text) (stands : Stands lines addr number words) : number = addr + 1 := by
  rcases stands with ⟨before, line, after, rfl, _, rfl, rfl⟩
  have earlier : Full before := fun line inside => full line (List.mem_append_left _ inside)
  rw [earlier.length_statements]

end Reference

namespace Assembly

abbrev Entry := Option Text × Instruction

def writing (entries : List Entry) : List CodeLine :=
  entries.map fun entry => ⟨entry.1, some (tokens entry.2.text)⟩

theorem full_writing (entries : List Entry) : Full (writing entries) := by
  intro line inside
  rcases List.mem_map.mp inside with ⟨entry, _, rfl⟩
  exact ⟨_, rfl⟩

theorem labels_writing (entries : List Entry) :
    labelsOf (writing entries) = entries.filterMap Prod.fst :=
  List.filterMap_map

theorem length_statements_writing (entries : List Entry) :
    (statementsOf (writing entries)).length = entries.length :=
  (full_writing entries).length_statements.trans (List.length_map _)

theorem statement_writing_iff (entries : List Entry) (addr : Nat) (words : List Text) :
    (statementsOf (writing entries))[addr]? = some words ↔
      ∃ entry, entries[addr]? = some entry ∧ tokens entry.2.text = words := by
  rw [(full_writing entries).statement_at]
  simp [writing]

theorem defines_writing_iff (entries : List Entry) (name : Text) (addr : Nat) :
    Defines (writing entries) name addr ↔ ∃ i, entries[addr]? = some (some name, i) := by
  rw [(full_writing entries).defines_iff]
  simp [writing]

theorem denotes_writing (entries : List Entry) (present : entries ≠ []) (fits : entries.length ≤ 16)
    (distinct : (entries.filterMap Prod.fst).Nodup) :
    Denotes (writing entries) (entries.map fun entry => (entry.2.canonical.byte : Nat)) := by
  have size := length_statements_writing entries
  refine ⟨labels_writing entries ▸ distinct, ?_, size ▸ fits, ?_, ?_⟩
  · rw [size]
    exact List.length_pos_iff.mpr present
  · rw [size, List.length_map]
  · intro addr words stated
    rcases (statement_writing_iff entries addr words).mp stated with ⟨entry, found, rfl⟩
    have inside : addr < 16 :=
      Nat.lt_of_lt_of_le (List.getElem?_eq_some_iff.mp found).1 fits
    refine ⟨entry.2.toForm, entry.2.spells_text _, ?_⟩
    rw [List.getElem?_map, found, Option.map_some, entry.2.word_toForm addr inside]

section Written

variable (source : Text) (entries : List Entry) (reads : Reads source (writing entries))

include reads

theorem words_written (present : entries ≠ []) (fits : entries.length ≤ 16)
    (distinct : (entries.filterMap Prod.fst).Nodup) (program : Program)
    (assembled : assemble source = .ok program) :
    program.words = entries.map fun entry => entry.2.canonical.byte := by
  have denotes := denotes_writing entries present fits distinct
  rw [← (reads_source_iff source _).mp reads] at denotes
  apply (List.map_inj_right fun _ _ => Fin.ext).mp
  calc
    program.words.map Fin.val = entries.map fun entry => (entry.2.canonical.byte : Nat) :=
      words_of_denotes source program assembled _ denotes
    _ = (entries.map fun entry => entry.2.canonical.byte).map Fin.val := List.map_map.symm

/-- Lines that write instructions, each perhaps with a label, are assembled to these instructions
and know these labels. -/
theorem assemble_written (present : entries ≠ []) (fits : entries.length ≤ 16)
    (distinct : (entries.filterMap Prod.fst).Nodup) :
    ∃ program, assemble source = .ok program ∧
      program.words = entries.map (fun entry => entry.2.canonical.byte) ∧
      ∀ name addr, (name, addr) ∈ program.labels ↔
        ∃ i, entries[addr]? = some (some name, i) := by
  have same := (reads_source_iff source _).mp reads
  have denotes := denotes_writing entries present fits distinct
  rw [← same] at denotes
  rcases assemble_of_denotes source _ denotes with ⟨program, assembled⟩
  refine ⟨program, assembled,
    words_written source entries reads present fits distinct program assembled, ?_⟩
  intro name addr
  rw [mem_labels_iff source program assembled, same, defines_writing_iff]

end Written

end Assembly

end FourBit
