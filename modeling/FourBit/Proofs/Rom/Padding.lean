import FourBit.Proofs.Machine.Turn

namespace FourBit

def Instruction.haltAt (addr : Nat) : Instruction := ⟨.jmp, Fin.ofNat 16 addr⟩

theorem fetch_byte (rom : Rom) (addr : Nat) (i : Instruction)
    (present : rom.cells[addr]? = some (.byte i.byte)) :
    fetch rom addr = .ok (.byte i.byte, i) := by
  rw [fetch_at rom addr _ present]
  simp only [Cell.value, Instruction.ofByte?_byte]

namespace Rom

def data (bytes : List (Fin 256)) : List Datum := bytes.map fun byte : Fin 256 => .int (byte : Nat)

def padding (length : Nat) : List (Fin 256) :=
  (List.range' length (16 - length)).map fun addr => (Instruction.haltAt addr).byte

theorem haltWord_byte (addr : Nat) : haltWord addr = ((Instruction.haltAt addr).byte : Nat) := by
  show (240 : Int) + addr % 16 = ((16 * 15 + addr % 16 : Nat) : Int)
  omega

theorem length_padding (length : Nat) : (padding length).length = 16 - length := by
  simp only [padding, List.length_map, List.length_range']

theorem padding_at (length addr : Nat) (beyond : length ≤ addr) (inside : addr < 16) :
    (padding length)[addr - length]? = some (Instruction.haltAt addr).byte := by
  have place : addr - length < 16 - length := by omega
  have same : length + (addr - length) = addr := by omega
  rw [padding, List.getElem?_map, List.getElem?_range' place, Nat.one_mul, same]
  rfl

theorem ofDatum_byte (byte : Fin 256) : Cell.ofDatum? (.int (byte : Nat)) = some (.byte byte) := by
  have bounds : 0 ≤ ((byte : Nat) : Int) ∧ ((byte : Nat) : Int) ≤ 255 := by omega
  have same : Fin.ofNat 256 (byte : Nat) = byte := Fin.ofNat_val_eq_self byte
  simp only [Cell.ofDatum?, bounds, and_self, if_true, Int.toNat_natCast, same]

theorem readCells_ok (addr : Nat) (words : List Datum) (cells : List Cell)
    (valid : words.map Cell.ofDatum? = cells.map some) : readCells addr words = .ok cells := by
  induction words generalizing addr cells with
  | nil =>
      cases cells with
      | nil => rfl
      | cons cell more => cases valid
  | cons word rest ih =>
      cases cells with
      | nil => cases valid
      | cons cell more =>
          simp only [List.map_cons, List.cons.injEq] at valid
          simp only [readCells, valid.1, ih (addr + 1) more valid.2, Except.map]

theorem ofWords_ok (words : List Datum) (cells : List Cell)
    (valid : words.map Cell.ofDatum? = cells.map some) (size : words.length = 16) :
    ∃ rom, ofWords words = .ok rom ∧ rom.cells = cells := by
  have right := readCells_ok 0 words cells valid
  unfold ofWords
  rw [dif_pos size]
  split
  · rename_i found read
    cases read.symm.trans right
    exact ⟨_, rfl, rfl⟩
  · rename_i error refused
    cases refused.symm.trans right

theorem data_valid (bytes : List (Fin 256)) :
    (data bytes).map Cell.ofDatum? = (bytes.map Cell.byte).map some := by
  simp only [data, List.map_map, Function.comp_def, ofDatum_byte]

theorem ofWords_bytes (rom : Rom) (bytes : List (Fin 256))
    (cells : rom.cells = bytes.map .byte) : ofWords (data rom.bytes) = .ok rom := by
  have shown : rom.bytes = bytes := by
    rw [Rom.bytes, cells, List.map_map]
    exact List.map_id bytes
  have size : bytes.length = 16 := by
    rw [← shown, Rom.bytes, List.length_map, rom.length_eq]
  obtain ⟨again, made, same⟩ :=
    ofWords_ok (data bytes) _ (data_valid bytes) ((List.length_map _).trans size)
  have equal : again = rom := by
    cases again
    cases rom
    simp_all
  rw [shown, made, equal]

theorem ofProgram_ok (words : List Datum) (cells : List Cell)
    (valid : words.map Cell.ofDatum? = cells.map some) (fits : words.length ≤ 16) :
    ∃ rom, ofProgram words = .ok rom ∧
      rom.cells = cells ++ (padding words.length).map .byte := by
  have filled : data (padding words.length) =
      (List.range' words.length (16 - words.length)).map fun addr => .int (haltWord addr) := by
    simp only [data, padding, List.map_map, Function.comp_def, haltWord_byte]
  unfold ofProgram
  rw [if_pos fits, ← filled]
  apply ofWords_ok
  · rw [List.map_append, List.map_append, valid, data_valid]
  · rw [List.length_append, data, List.length_map, length_padding]
    omega

theorem ofProgram_data (bytes : List (Fin 256)) (fits : bytes.length ≤ 16) :
    ∃ rom, ofProgram (data bytes) = .ok rom ∧
      rom.cells = (bytes ++ padding bytes.length).map .byte := by
  have length : (data bytes).length = bytes.length := List.length_map _
  obtain ⟨rom, made, cells⟩ :=
    ofProgram_ok (data bytes) _ (data_valid bytes) (length.trans_le fits)
  rw [length, ← List.map_append] at cells
  exact ⟨rom, made, cells⟩

theorem ofImage_data (bytes : List (Fin 256)) :
    ofImage (bytes.map fun byte : Fin 256 => UInt8.ofNat byte) = ofProgram (data bytes) := by
  have same (byte : Fin 256) : (UInt8.ofNat byte).toNat = byte :=
    UInt8.toNat_ofNat_of_lt' byte.isLt
  simp only [ofImage, data, List.map_map, Function.comp_def, same]

theorem fetch_padding (rom : Rom) (cells : List Cell) (length : Nat) (size : cells.length = length)
    (stored : rom.cells = cells ++ (padding length).map .byte) (addr : Nat)
    (beyond : length ≤ addr) (inside : addr < 16) :
    fetch rom addr = .ok (.byte (Instruction.haltAt addr).byte, Instruction.haltAt addr) := by
  apply fetch_byte
  subst size
  rw [stored, List.getElem?_append_right beyond, List.getElem?_map,
    padding_at _ addr beyond inside]
  rfl

end Rom

namespace Program

theorem rom_ok (program : Program) (fits : program.words.length ≤ 16) :
    ∃ rom, program.rom = .ok rom ∧
      rom.cells = (program.words ++ Rom.padding program.words.length).map .byte :=
  Rom.ofProgram_data program.words fits

theorem word_of_entry (program : Program) (addr : Nat) (entry : SourceInstruction)
    (present : program.instructions[addr]? = some entry) :
    program.words[addr]? = some entry.instruction.byte := by
  rw [words, List.getElem?_map, present, Option.map_some]

theorem entry_of_word (program : Program) (addr : Nat) (word : Fin 256)
    (present : program.words[addr]? = some word) :
    ∃ entry, program.instructions[addr]? = some entry ∧ entry.instruction.byte = word := by
  rw [words, List.getElem?_map] at present
  exact Option.map_eq_some_iff.mp present

section Stored

variable (program : Program) (rom : Rom)
  (cells : rom.cells = (program.words ++ Rom.padding program.words.length).map .byte)

include cells

theorem cell_inside (addr : Nat) (entry : SourceInstruction)
    (present : program.instructions[addr]? = some entry) :
    rom.cells[addr]? = some (.byte entry.instruction.byte) := by
  have word := program.word_of_entry addr entry present
  have inside := (List.getElem?_eq_some_iff.mp word).1
  rw [cells, List.getElem?_map, List.getElem?_append_left inside, word]
  rfl

theorem fetch_inside (addr : Nat) (entry : SourceInstruction)
    (present : program.instructions[addr]? = some entry) :
    fetch rom addr = .ok (.byte entry.instruction.byte, entry.instruction) :=
  fetch_byte rom addr _ (cell_inside program rom cells addr entry present)

theorem fetch_beyond (addr : Nat) (beyond : program.words.length ≤ addr) (inside : addr < 16) :
    fetch rom addr =
      .ok (.byte (Instruction.haltAt addr).byte, Instruction.haltAt addr) :=
  rom.fetch_padding (program.words.map .byte) _ (List.length_map _) (cells.trans List.map_append)
    addr beyond inside

end Stored

theorem rom_stores (program : Program) (fits : program.words.length ≤ 16) :
    ∃ rom, program.rom = .ok rom ∧
      (∀ (addr : Nat) (word : Fin 256), program.words[addr]? = some word →
        rom.read addr = .ok (.byte word)) ∧
      ∀ addr : Nat, program.words.length ≤ addr → addr < 16 →
        ∃ word : Fin 256, rom.read addr = .ok (.byte word) ∧
          Instruction.decode (word : Nat) = .ok ⟨.jmp, Fin.ofNat 16 addr⟩ := by
  rcases program.rom_ok fits with ⟨rom, made, cells⟩
  refine ⟨rom, made, ?_, ?_⟩
  · intro addr word found
    rcases program.entry_of_word addr word found with ⟨entry, present, rfl⟩
    exact (fetch_ok rom addr _ _ (program.fetch_inside rom cells addr entry present)).1
  · intro addr beyond inside
    exact ⟨_, fetch_ok rom addr _ _ (program.fetch_beyond rom cells addr beyond inside)⟩

end Program

end FourBit
