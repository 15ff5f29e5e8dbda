import FourBit.Proofs.Assembly.Refusal
import FourBit.Proofs.Assembly.Written
import FourBit.Proofs.Machine.Turn

/-! Memories disassembled and assembled again: no more than ignored operands is lost, and of words
that are no instructions the first one is reported. -/

namespace FourBit

open Assembly Reference

def Decodes (byte : Fin 256) : Prop := ∃ i, Instruction.decode (byte : Nat) = .ok i

/-- A word without an operand that is ignored: the low half is zero in the words of MOV A, B and of
IN A, MOV B, A, IN B and OUT B. -/
def withoutIgnored (word : Nat) : Nat :=
  if word / 16 ∈ [1, 2, 4, 6, 9] then word / 16 * 16 else word

namespace Instruction

theorem disassemble_byte (i : Instruction) : disassemble (i.byte : Nat) = i.text := by
  simp only [disassemble, decode_byte, ofByte?_byte]

theorem disassemble_unknown (byte : Fin 256) (unknown : ¬ Decodes byte) :
    disassemble (byte : Nat) = "??".toList := by
  unfold disassemble
  cases decoded : decode (byte : Nat) with
  | ok i => exact (unknown ⟨i, decoded⟩).elim
  | error error => rfl

theorem byte_of_decodes (byte : Fin 256) (decodes : Decodes byte) :
    ∃ i : Instruction, i.byte = byte := by
  obtain ⟨i, decoded⟩ := decodes
  rw [decode_byte] at decoded
  split at decoded
  · rename_i j found
    exact ⟨j, byte_of_ofByte? found⟩
  · cases decoded

theorem bytes_of_decodes (bytes : List (Fin 256)) (decodes : ∀ byte ∈ bytes, Decodes byte) :
    ∃ instructions : List Instruction, instructions.map Instruction.byte = bytes := by
  induction bytes with
  | nil => exact ⟨[], rfl⟩
  | cons byte rest ih =>
      obtain ⟨first, others⟩ := List.forall_mem_cons.mp decodes
      obtain ⟨i, rfl⟩ := byte_of_decodes byte first
      obtain ⟨more, rfl⟩ := ih others
      exact ⟨i :: more, rfl⟩

theorem bare_disassemble (byte : Fin 256) : Bare (disassemble (byte : Nat)) := by
  by_cases decodes : Decodes byte
  · obtain ⟨i, rfl⟩ := byte_of_decodes byte decodes
    rw [disassemble_byte]
    exact i.bare_text
  · rw [disassemble_unknown byte decodes]
    exact ⟨by decide, by decide⟩

theorem byte_canonical (i : Instruction) : (i.canonical.byte : Nat) = withoutIgnored i.byte := by
  obtain ⟨opcode, n⟩ := i
  revert n
  cases opcode <;> decide +kernel

end Instruction

def disassembly (bytes : List (Fin 256)) : List Text :=
  bytes.map fun byte : Fin 256 => Instruction.disassemble (byte : Nat)

theorem length_disassembly (bytes : List (Fin 256)) :
    (disassembly bytes).length = bytes.length :=
  List.length_map _

theorem disassembly_split (before after : List (Fin 256)) (byte : Fin 256)
    (unknown : ¬ Decodes byte) :
    disassembly (before ++ byte :: after) =
      disassembly before ++ "??".toList :: disassembly after := by
  simp only [disassembly, List.map_append, List.map_cons,
    Instruction.disassemble_unknown byte unknown]

theorem bare_disassembly (bytes : List (Fin 256)) : ∀ text ∈ disassembly bytes, Bare text := by
  intro text listed
  obtain ⟨byte, _, rfl⟩ := List.mem_map.mp listed
  exact Instruction.bare_disassemble byte

theorem spells_disassembly (lines : List CodeLine) (bytes : List (Fin 256))
    (decodes : ∀ byte ∈ bytes, Decodes byte) :
    ∀ words ∈ (disassembly bytes).map tokens, ∃ form, Spells lines words form := by
  intro words listed
  obtain ⟨text, among, rfl⟩ := List.mem_map.mp listed
  obtain ⟨byte, inside, rfl⟩ := List.mem_map.mp among
  obtain ⟨i, rfl⟩ := Instruction.byte_of_decodes byte (decodes byte inside)
  rw [i.disassemble_byte]
  exact ⟨i.toForm, i.spells_text lines⟩

theorem unknown_instruction (labels : List (Text × Nat)) (statement : Statement)
    (spoken : tokens statement.body = ["??".toList]) :
    statement.instruction labels = .error (.unknownMnemonic "??".toList) := by
  simp only [Statement.instruction, spoken]
  rfl

namespace Rom

def FirstUnknown (rom : Rom) (addr : Nat) : Prop :=
  ∃ before byte after, rom.bytes = before ++ byte :: after ∧ addr = before.length ∧
    (∀ earlier ∈ before, Decodes earlier) ∧ ¬ Decodes byte

theorem length_bytes (rom : Rom) : rom.bytes.length = 16 :=
  (List.length_map _).trans rom.length_eq

theorem decodes_or_firstUnknown (rom : Rom) :
    (∀ byte ∈ rom.bytes, Decodes byte) ∨ ∃ addr, rom.FirstUnknown addr := by
  cases decoded : rom.bytes.mapM fun byte : Fin 256 => Instruction.decode (byte : Nat) with
  | ok instructions =>
      obtain ⟨_, each⟩ := (mapM_ok_iff _ _ _).mp decoded
      apply Or.inl
      intro byte inside
      obtain ⟨addr, found⟩ := List.getElem?_of_mem inside
      obtain ⟨i, _, same⟩ := each addr byte found
      exact ⟨i, same⟩
  | error error =>
      obtain ⟨before, byte, after, split, earlier, refused⟩ := (mapM_error_iff _ _ _).mp decoded
      refine .inr ⟨before.length, before, byte, after, split, rfl, earlier, ?_⟩
      intro decodes
      obtain ⟨i, same⟩ := decodes
      cases refused.symm.trans same

section Listing

variable (rom : Rom)

theorem sourceOf_listing : sourceOf rom.listing = Text.unlines (disassembly rom.bytes) := by
  apply congrArg Text.unlines
  apply List.ext_getElem?
  intro addr
  simp only [listing, disassembly, List.map_map, List.getElem?_map, List.getElem?_zipIdx,
    Option.map_map]
  cases found : rom.bytes[addr]? with
  | none => rfl
  | some byte =>
      have size := rom.length_bytes
      have inside : 0 + addr < 16 := by
        have bound := (List.getElem?_eq_some_iff.mp found).1
        omega
      simp only [Option.map_some, Function.comp_apply, drop_listingMargin _ byte _ inside]

theorem lines_listing : Text.lines (sourceOf rom.listing) = disassembly rom.bytes := by
  rw [lines_iff]
  refine ⟨?_, ?_, rom.sourceOf_listing⟩
  · apply List.ne_nil_of_length_pos
    rw [length_disassembly, length_bytes]
    decide
  · intro text listed
    exact (bare_disassembly rom.bytes text listed).single

def codeLines : List CodeLine :=
  (disassembly rom.bytes).map fun text => ⟨none, some (tokens text)⟩

theorem reads_listing : Reads (sourceOf rom.listing) rom.codeLines := by
  obtain ⟨present, single, split⟩ := (lines_iff _ _).mp rom.lines_listing
  refine ⟨disassembly rom.bytes, present, single, split, ?_⟩
  apply List.forall₂_map_right_iff.mpr
  apply List.forall₂_same.mpr
  intro text listed
  exact (bare_disassembly rom.bytes text listed).reads

theorem full_codeLines : Full rom.codeLines := by
  intro line listed
  obtain ⟨text, _, rfl⟩ := List.mem_map.mp listed
  exact ⟨_, rfl⟩

theorem statements_codeLines :
    statementsOf rom.codeLines = (disassembly rom.bytes).map tokens := by
  simp only [statementsOf, codeLines, List.filterMap_map]
  exact congrFun List.filterMap_eq_map _

theorem labels_codeLines : labelsOf rom.codeLines = [] := by
  simp only [labelsOf, codeLines, List.filterMap_map]
  exact List.filterMap_eq_nil_iff.mpr fun _ _ => rfl

theorem assemble_decoded (decodes : ∀ byte ∈ rom.bytes, Decodes byte) :
    ∃ program, assemble (sourceOf rom.listing) = .ok program ∧
      program.words.map Fin.val = rom.bytes.map fun byte : Fin 256 => withoutIgnored byte := by
  obtain ⟨instructions, bytes⟩ := Instruction.bytes_of_decodes rom.bytes decodes
  have lines : rom.codeLines = writing (instructions.map fun i => (none, i)) := by
    simp only [codeLines, disassembly, writing, ← bytes, List.map_map, Function.comp_def,
      Instruction.disassemble_byte]
  have size : instructions.length = 16 := by
    rw [← rom.length_bytes, ← bytes, List.length_map]
  have reads := rom.reads_listing
  rw [lines] at reads
  obtain ⟨program, assembled, words, _⟩ := assemble_written _ _ reads
    (by simp [← List.length_pos_iff, size]) (by simp [size]) (by simp [List.filterMap_map])
  refine ⟨program, assembled, ?_⟩
  rw [words, ← bytes]
  simp only [List.map_map, Function.comp_def, Instruction.byte_canonical]

theorem assemble_unknown (addr : Nat) (first : rom.FirstUnknown addr) :
    assemble (sourceOf rom.listing) =
      .error ⟨.unknownMnemonic "??".toList, addr, some (addr + 1, "??".toList)⟩ := by
  obtain ⟨before, byte, after, split, rfl, earlier, unknown⟩ := first
  have texts := disassembly_split before after byte unknown
  rw [← split] at texts
  have statements : statementsOf rom.codeLines =
      (disassembly before).map tokens ++ ["??".toList] :: (disassembly after).map tokens := by
    rw [statements_codeLines, texts, List.map_append, List.map_cons]
    rfl
  have fits : (statementsOf rom.codeLines).length ≤ 16 := by
    rw [statements_codeLines, List.length_map, length_disassembly, length_bytes]
  have distinct : (labelsOf rom.codeLines).Nodup := by
    rw [labels_codeLines]
    exact List.nodup_nil
  obtain ⟨number, raw, stands, given, refused⟩ := refused_at_first _ _ _ _ _ _ rom.reads_listing
    distinct fits statements (spells_disassembly _ before earlier) unknown_instruction
  have place : ((disassembly before).map tokens).length = before.length := by
    rw [List.length_map, length_disassembly]
  have line : number = before.length + 1 := by
    rw [rom.full_codeLines.number _ _ _ stands, place]
  have same : raw = "??".toList := by
    rw [lines_listing, texts, line, Nat.add_sub_cancel, ← length_disassembly before,
      List.getElem?_append_right (Nat.le_refl _), Nat.sub_self] at given
    exact (Option.some.inj given).symm
  rw [refused, place, line, same]
  rfl

theorem listing_ok_iff :
    (∃ program, assemble (sourceOf rom.listing) = .ok program) ↔
      ∀ byte ∈ rom.bytes, Decodes byte := by
  constructor
  · intro given
    obtain ⟨program, assembled⟩ := given
    rcases rom.decodes_or_firstUnknown with decodes | ⟨addr, first⟩
    · exact decodes
    · cases assembled.symm.trans (rom.assemble_unknown addr first)
  · intro decodes
    obtain ⟨program, assembled, _⟩ := rom.assemble_decoded decodes
    exact ⟨program, assembled⟩

theorem listing_words_iff (words : List Nat) :
    (∃ program, assemble (sourceOf rom.listing) = .ok program ∧
      program.words.map Fin.val = words) ↔
    (∀ byte ∈ rom.bytes, Decodes byte) ∧
      words = rom.bytes.map fun byte : Fin 256 => withoutIgnored byte := by
  constructor
  · intro given
    obtain ⟨program, assembled, rfl⟩ := given
    have decodes := rom.listing_ok_iff.mp ⟨program, assembled⟩
    obtain ⟨program', assembled', words⟩ := rom.assemble_decoded decodes
    cases assembled.symm.trans assembled'
    exact ⟨decodes, words⟩
  · intro given
    obtain ⟨decodes, rfl⟩ := given
    exact rom.assemble_decoded decodes

theorem listing_error_iff (rejection : Rejection) :
    assemble (sourceOf rom.listing) = .error rejection ↔
      ∃ addr, rom.FirstUnknown addr ∧
        rejection = ⟨.unknownMnemonic "??".toList, addr, some (addr + 1, "??".toList)⟩ := by
  constructor
  · intro refused
    rcases rom.decodes_or_firstUnknown with decodes | ⟨addr, first⟩
    · obtain ⟨program, assembled, _⟩ := rom.assemble_decoded decodes
      cases refused.symm.trans assembled
    · refine ⟨addr, first, ?_⟩
      exact Except.error.inj (refused.symm.trans (rom.assemble_unknown addr first))
  · intro given
    obtain ⟨addr, first, rfl⟩ := given
    exact rom.assemble_unknown addr first

end Listing

end Rom

/-- The source that is left of the listing of a memory is a program if all words are instructions,
and then its words are those of the memory without ignored operands. Otherwise it is refused for
the first word that is no instruction, at its address and on its line. -/
theorem assemble_listing (rom : Rom) :
    ((∃ program, assemble (sourceOf rom.listing) = .ok program) ↔
      ∀ byte ∈ rom.bytes, Decodes byte) ∧
    (∀ words, (∃ program, assemble (sourceOf rom.listing) = .ok program ∧
        program.words.map Fin.val = words) ↔
      (∀ byte ∈ rom.bytes, Decodes byte) ∧
        words = rom.bytes.map fun byte : Fin 256 => withoutIgnored byte) ∧
    ∀ failure, (∃ rejection, assemble (sourceOf rom.listing) = .error rejection ∧
        rejection.failure = failure) ↔
      ∃ addr : Nat, rom.FirstUnknown addr ∧
        failure = .fault ⟨.unknownMnemonic, "Unknown mnemonic: ??", 0, addr,
          some ((addr : Int) + 1), some "??".toList, none⟩ := by
  refine ⟨rom.listing_ok_iff, rom.listing_words_iff, ?_⟩
  intro failure
  simp only [rom.listing_error_iff]
  constructor
  · intro given
    obtain ⟨_, ⟨addr, first, rfl⟩, rfl⟩ := given
    exact ⟨addr, first, rfl⟩
  · intro given
    obtain ⟨addr, first, rfl⟩ := given
    exact ⟨_, ⟨addr, first, rfl⟩, rfl⟩

end FourBit
