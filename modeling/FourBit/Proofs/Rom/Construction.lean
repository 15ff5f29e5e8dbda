import FourBit.Proofs.Rom.Padding
import FourBit.Proofs.Shown
import FourBit.Rom.Listing
import FourBit.Text.Numeral

/-! Memories built from words: which words are refused, what a memory holds, and that its words, its
bytes and its hexadecimal text each build it again. -/

namespace FourBit

def Datum.whole? : Datum → Option Int
  | int value => some value
  | truth value => some (if value then 1 else 0)
  | _ => Option.none

def Datum.IsByte (word : Datum) : Prop := ∃ n, word.whole? = some n ∧ 0 ≤ n ∧ n ≤ 255

theorem Datum.isByte_int (n : Int) : (Datum.int n).IsByte ↔ 0 ≤ n ∧ n ≤ 255 := by
  simp only [IsByte, whole?, Option.some.injEq, exists_eq_left']

namespace Cell

theorem datum_of_ofDatum (word : Datum) (cell : Cell) (read : ofDatum? word = some cell) :
    cell.datum = word := by
  cases word with
  | int n =>
      simp only [ofDatum?] at read
      split at read
      · rename_i inside
        cases read
        have value : (Fin.ofNat 256 n.toNat : Nat) = n.toNat :=
          Nat.mod_eq_of_lt (by omega)
        simp only [datum, value, Int.toNat_of_nonneg inside.1]
      · cases read
  | truth value =>
      cases read
      rfl
  | none | real | text | list | record => cases read

theorem ofDatum_datum (cell : Cell) : ofDatum? cell.datum = some cell := by
  cases cell with
  | byte value => exact Rom.ofDatum_byte value
  | truth value => rfl

theorem ofDatum_none_iff (word : Datum) : ofDatum? word = none ↔ ¬ word.IsByte := by
  cases word with
  | int n =>
      rw [Datum.isByte_int, ofDatum?]
      split
      · rename_i inside
        exact iff_of_false (Option.some_ne_none _) (not_not_intro inside)
      · rename_i outside
        exact iff_of_true rfl outside
  | truth value =>
      refine iff_of_false (Option.some_ne_none _) (not_not_intro ⟨_, rfl, ?_⟩)
      cases value <;> decide
  | none | real | text | list | record =>
      apply iff_of_true rfl
      intro given
      obtain ⟨n, whole, _⟩ := given
      cases whole

end Cell

namespace Rom

/-- The first word that is no byte, and its place. -/
def FirstOutside (words : List Datum) (addr : Nat) (word : Datum) : Prop :=
  ∃ before after, words = before ++ word :: after ∧ addr = before.length ∧
    (∀ earlier ∈ before, earlier.IsByte) ∧ ¬ word.IsByte

/-- What is raised over words that fill no memory. It is an image fault, and if the words are not
too many it has the place of the first that is no byte; but it shows that word, and without a
message there is no fault. -/
inductive Complaint (words : List Datum) : Failure → Prop
  | tooLong (fault : Fault) (large : 16 < words.length) (kind : fault.kind = .image) :
      Complaint words (.fault fault)
  | notByte (addr : Nat) (word : Datum) (fault : Fault) (fits : words.length ≤ 16)
      (first : FirstOutside words addr word) (shown : word.isShown = true)
      (kind : fault.kind = .image) (place : fault.addr = addr) : Complaint words (.fault fault)
  | hidden (addr : Nat) (word : Datum) (fits : words.length ≤ 16)
      (first : FirstOutside words addr word) (hidden : word.isShown = false) :
      Complaint words (.breach .longNumber)

/-- A memory holds the words of a program, and behind them a jump to itself at each address. -/
structure Holds (rom : Rom) (words : List Datum) : Prop where
  inside : ∀ (addr : Nat) (word : Datum), words[addr]? = some word →
    ∃ cell, rom.read addr = .ok cell ∧ cell.datum = word
  beyond : ∀ addr : Nat, words.length ≤ addr → addr < 16 →
    ∃ cell, rom.read addr = .ok cell ∧ cell.datum = .int (240 + addr)

def Rebuilds (rom : Rom) (words : List Datum) : Prop :=
  ∃ again, ofProgram words = .ok again ∧ ofWords words = .ok again ∧ (again == rom) = true

def readHexdump (t : Text) : List (Option Int) :=
  (t.splitOn ' ').map (Numeral.read? .hexadecimal)

/-- A memory is built again by its words, by its bytes and by the numbers of its hexadecimal
text. -/
structure Persists (rom : Rom) : Prop where
  snapshot : rom.Rebuilds rom.snapshot
  image : ∃ again, ofImage rom.image = .ok again ∧ (again == rom) = true
  hexdump : ∃ numbers : List Int, readHexdump rom.hexdump = numbers.map some ∧
    rom.Rebuilds (numbers.map .int)

section Refused

variable (before : List Datum) (word : Datum) (after : List Datum)
  (earlier : ∀ w ∈ before, w.IsByte) (outside : ¬ word.IsByte)

include earlier outside

theorem readCells_refused (addr : Nat) :
    readCells addr (before ++ word :: after) = .error (.notByte (addr + before.length) word) := by
  induction before generalizing addr with
  | nil => simp only [List.nil_append, readCells, (Cell.ofDatum_none_iff word).mpr outside,
      List.length_nil, Nat.add_zero]
  | cons first rest ih =>
      obtain ⟨here, others⟩ := List.forall_mem_cons.mp earlier
      have tail := ih others (addr + 1)
      cases read : Cell.ofDatum? first with
      | none => exact ((Cell.ofDatum_none_iff first).mp read here).elim
      | some cell =>
          simp only [List.cons_append, readCells, read, tail, Except.map, List.length_cons,
            Nat.add_assoc, Nat.add_comm 1]

theorem ofProgram_refused (fits : (before ++ word :: after).length ≤ 16) :
    ofProgram (before ++ word :: after) = .error (.notByte before.length word) := by
  unfold ofProgram
  rw [if_pos fits, List.append_assoc, List.cons_append]
  -- The word is refused before anything of the padding is looked at.
  generalize filling : List.map _ _ = padding
  have size : (before ++ word :: (after ++ padding)).length = 16 := by
    simp only [← filling, List.length_append, List.length_cons, List.length_map,
      List.length_range'] at fits ⊢
    omega
  have refused := readCells_refused before word (after ++ padding) earlier outside 0
  rw [Nat.zero_add] at refused
  unfold ofWords
  rw [dif_pos size]
  split
  · rename_i cells read
    cases refused.symm.trans read
  · rename_i error stuck
    cases refused.symm.trans stuck
    rfl

end Refused

theorem bytes_or_firstOutside (words : List Datum) :
    (∃ cells : List Cell, words.map Cell.ofDatum? = cells.map some) ∨
      ∃ addr word, FirstOutside words addr word := by
  induction words with
  | nil => exact .inl ⟨[], rfl⟩
  | cons word rest ih =>
      cases read : Cell.ofDatum? word with
      | none =>
          exact .inr ⟨0, word, [], rest, rfl, rfl, by simp, (Cell.ofDatum_none_iff word).mp read⟩
      | some cell =>
          have here : word.IsByte := by
            by_contra outside
            rw [(Cell.ofDatum_none_iff word).mpr outside] at read
            cases read
          rcases ih with ⟨cells, valid⟩ | ⟨addr, bad, before, after, rfl, rfl, earlier, outside⟩
          · exact .inl ⟨cell :: cells, by rw [List.map_cons, List.map_cons, read, valid]⟩
          · exact .inr ⟨_, bad, word :: before, after, rfl, rfl,
              List.forall_mem_cons.mpr ⟨here, earlier⟩, outside⟩

theorem isByte_of_valid (words : List Datum) (cells : List Cell)
    (valid : words.map Cell.ofDatum? = cells.map some) : ∀ word ∈ words, word.IsByte := by
  intro word listed
  by_contra outside
  have refused := List.mem_map_of_mem (f := Cell.ofDatum?) listed
  rw [valid, (Cell.ofDatum_none_iff word).mpr outside] at refused
  obtain ⟨cell, _, impossible⟩ := List.mem_map.mp refused
  cases impossible

inductive Built (words : List Datum) : Except Misfit Rom → Prop
  | tooLong (large : 16 < words.length) : Built words (.error (.tooLong words.length))
  | refused (addr : Nat) (word : Datum) (fits : words.length ≤ 16)
      (first : FirstOutside words addr word) : Built words (.error (.notByte addr word))
  | filled (rom : Rom) (cells : List Cell) (fits : words.length ≤ 16)
      (valid : words.map Cell.ofDatum? = cells.map some)
      (stored : rom.cells = cells ++ (padding words.length).map .byte) : Built words (.ok rom)

theorem ofProgram_built (words : List Datum) : Built words (ofProgram words) := by
  by_cases fits : words.length ≤ 16
  · rcases bytes_or_firstOutside words with ⟨cells, valid⟩ | ⟨addr, word, first⟩
    · obtain ⟨rom, made, stored⟩ := ofProgram_ok words cells valid fits
      rw [made]
      exact .filled rom cells fits valid stored
    · have given := first
      obtain ⟨before, after, rfl, rfl, earlier, outside⟩ := given
      rw [ofProgram_refused before word after earlier outside fits]
      exact .refused _ word fits first
  · have large := Nat.lt_of_not_le fits
    rw [ofProgram, if_neg fits]
    exact .tooLong large

theorem ofProgram_error_iff (words : List Datum) :
    (∃ misfit, ofProgram words = .error misfit) ↔
      16 < words.length ∨ ∃ word ∈ words, ¬ word.IsByte := by
  have built := ofProgram_built words
  generalize outcome : ofProgram words = made at built
  cases built with
  | tooLong large => exact iff_of_true ⟨_, rfl⟩ (.inl large)
  | refused addr word fits first =>
      obtain ⟨before, after, rfl, _, _, outside⟩ := first
      exact iff_of_true ⟨_, rfl⟩ (.inr ⟨word, by simp, outside⟩)
  | filled rom cells fits valid =>
      apply iff_of_false
      · intro failed
        obtain ⟨misfit, impossible⟩ := failed
        cases impossible
      · intro either
        rcases either with large | ⟨word, listed, outside⟩
        · exact Nat.not_lt.mpr fits large
        · exact outside (isByte_of_valid words cells valid word listed)

theorem complaint_of_refused (words : List Datum) (misfit : Misfit)
    (failed : ofProgram words = .error misfit) : Complaint words misfit.failure := by
  have built := ofProgram_built words
  rw [failed] at built
  cases built with
  | tooLong large => exact .tooLong _ large rfl
  | refused addr word fits first =>
      cases shown : word.isShown with
      | true =>
          rw [Misfit.failure, Failure.showing_shown _ shown]
          exact .notByte addr word _ fits first shown rfl rfl
      | false =>
          rw [Misfit.failure, Failure.showing_hidden _ shown]
          exact .hidden addr word fits first shown

theorem holds_of_made (words : List Datum) (rom : Rom) (made : ofProgram words = .ok rom) :
    rom.Holds words := by
  have built := ofProgram_built words
  rw [made] at built
  cases built with
  | filled _ cells fits valid stored =>
      have size : words.length = cells.length := by
        simpa using congrArg List.length valid
      constructor
      · intro addr word present
        have kept := congrArg (·[addr]?) valid
        simp only [List.getElem?_map, present, Option.map_some] at kept
        obtain ⟨cell, found, read⟩ := Option.map_eq_some_iff.mp kept.symm
        have inside := (List.getElem?_eq_some_iff.mp found).1
        refine ⟨cell, rom.read_at addr cell ?_, Cell.datum_of_ofDatum word cell read.symm⟩
        rw [stored, List.getElem?_append_left inside, found]
      · intro addr beyond inside
        refine ⟨.byte (Instruction.haltAt addr).byte, rom.read_at addr _ ?_, ?_⟩
        · rw [stored, List.getElem?_append_right (size ▸ beyond), ← size, List.getElem?_map,
            padding_at _ addr beyond inside]
          rfl
        · rw [Cell.datum, ← haltWord_byte, haltWord]
          congr 1
          omega

theorem ofProgram_padded (words : List Datum) (room : words.length < 16) :
    ofProgram (words ++ [.int (240 + words.length)]) = ofProgram words := by
  have first : haltWord words.length = 240 + words.length := by
    rw [haltWord]
    omega
  have rest : 16 - words.length = 16 - (words.length + 1) + 1 := by omega
  have length : (words ++ [Datum.int (240 + words.length)]).length = words.length + 1 := by
    rw [List.length_append, List.length_singleton]
  unfold ofProgram
  rw [length, if_pos (Nat.succ_le_of_lt room), if_pos (Nat.le_of_lt room), rest, List.range'_succ,
    List.map_cons, first, List.append_assoc]
  rfl

section Rebuilt

variable (rom : Rom)

theorem beq_iff (other : Rom) : (rom == other) = true ↔ rom.bytes = other.bytes := by
  show (rom.bytes == other.bytes) = true ↔ _
  exact beq_iff_eq

theorem ofProgram_full (words : List Datum) (size : words.length = 16) :
    ofProgram words = ofWords words := by
  rw [ofProgram, if_pos (Nat.le_of_eq size), size]
  exact congrArg ofWords (List.append_nil words)

theorem rebuilds_of_cells (words : List Datum) (cells : List Cell)
    (valid : words.map Cell.ofDatum? = cells.map some) (same : cells.map Cell.value = rom.bytes) :
    rom.Rebuilds words := by
  have size : words.length = 16 := by
    calc
      words.length = cells.length := by simpa using congrArg List.length valid
      _ = rom.bytes.length := by rw [← same, List.length_map]
      _ = 16 := (List.length_map _).trans rom.length_eq
  obtain ⟨again, made, stored⟩ := ofWords_ok words cells valid size
  refine ⟨again, (ofProgram_full words size).trans made, made, ?_⟩
  rw [beq_iff, bytes, stored, same]

theorem rebuilds_snapshot : rom.Rebuilds rom.snapshot := by
  apply rom.rebuilds_of_cells _ rom.cells _ rfl
  simp only [snapshot, List.map_map, Function.comp_def, Cell.ofDatum_datum]

theorem rebuilds_data : rom.Rebuilds (data rom.bytes) := by
  apply rom.rebuilds_of_cells _ _ (data_valid rom.bytes)
  rw [List.map_map]
  exact List.map_id rom.bytes

theorem readHexdump_hexdump :
    readHexdump rom.hexdump = rom.bytes.map fun byte : Fin 256 => some ((byte : Nat) : Int) := by
  have solid : ∀ byte : Fin 256, ' ' ∉ Text.hex 2 byte := by decide +kernel
  have valued : ∀ byte : Fin 256,
      Numeral.read? .hexadecimal (Text.hex 2 byte) = some ((byte : Nat) : Int) := by decide +kernel
  have pieces : rom.hexdump.splitOn ' ' = rom.bytes.map fun byte : Fin 256 => Text.hex 2 byte := by
    apply List.splitOn_intercalate
    · intro piece listed
      obtain ⟨byte, _, rfl⟩ := List.mem_map.mp listed
      exact solid byte
    · apply List.ne_nil_of_length_pos
      rw [List.length_map, bytes, List.length_map, rom.length_eq]
      decide
  simp only [readHexdump, pieces, List.map_map, Function.comp_def, valued]

theorem hexdump_iff (other : Rom) : (rom == other) = true ↔ rom.hexdump = other.hexdump := by
  rw [beq_iff]
  constructor
  · intro same
    rw [hexdump, hexdump, same]
  · intro same
    have numbers := congrArg readHexdump same
    rw [readHexdump_hexdump, readHexdump_hexdump] at numbers
    refine List.map_injective_iff.mpr ?_ numbers
    intro byte byte' equal
    exact Fin.ext (Int.ofNat.inj (Option.some.inj equal))

theorem persists : rom.Persists where
  snapshot := rom.rebuilds_snapshot
  image := by
    obtain ⟨again, made, _, same⟩ := rom.rebuilds_data
    exact ⟨again, (ofImage_data rom.bytes).trans made, same⟩
  hexdump := by
    refine ⟨rom.bytes.map fun byte : Fin 256 => ((byte : Nat) : Int), ?_, ?_⟩
    · rw [readHexdump_hexdump, List.map_map]
      rfl
    · rw [List.map_map]
      exact rom.rebuilds_data

end Rebuilt

/-- A program fills a memory unless it is too long or a word of it is no byte. Of what does not,
there is a complaint that names the first such word, if there is any that can be shown. A memory
that is filled holds the words and the padding behind them, and the program with one word of the
padding fills an equal one. Whatever a memory holds, its words, its bytes and its hexadecimal text
build it again, and the text tells it from the memories that are not equal to it. -/
theorem program_fills_memory (words : List Datum) :
    ((∃ misfit, ofProgram words = .error misfit) ↔
      16 < words.length ∨ ∃ word ∈ words, ¬ word.IsByte) ∧
    (∀ misfit, ofProgram words = .error misfit → Complaint words misfit.failure) ∧
    (∀ rom, ofProgram words = .ok rom → rom.Holds words ∧
      (words.length < 16 → ∃ again, ofProgram (words ++ [.int (240 + words.length)]) = .ok again ∧
        (again == rom) = true)) ∧
    (∀ rom : Rom, rom.Persists) ∧
    ∀ rom other : Rom, (rom == other) = true ↔ rom.hexdump = other.hexdump := by
  refine ⟨ofProgram_error_iff words, complaint_of_refused words, ?_, persists, hexdump_iff⟩
  intro rom made
  refine ⟨holds_of_made words rom made, ?_⟩
  intro room
  exact ⟨rom, (ofProgram_padded words room).trans made, (rom.beq_iff rom).mpr rfl⟩

def mixed : List Datum := [.int 0x33, .truth true, .int 0x40]

def mixedDump : Text := "33 01 40 F3 F4 F5 F6 F7 F8 F9 FA FB FC FD FE FF".toList

def outsized : List Datum := [.int 0, .int 256, .int (-1)]

/-- The truth value is stored as the byte one, and of two words that are no bytes the first is
reported. -/
theorem program_fills_memory_mixed :
    (∃ rom again, ofProgram mixed = .ok rom ∧ rom.hexdump = mixedDump ∧ rom.Holds mixed ∧
      rom.Persists ∧ ofProgram (mixed ++ [.int 243]) = .ok again ∧ again.hexdump = mixedDump) ∧
    ∃ misfit, ofProgram outsized = .error misfit ∧ misfit.fault.addr = 1 ∧
      Complaint outsized misfit.failure := by
  constructor
  · have dump : (ofProgram mixed).toOption.map hexdump = some mixedDump := by decide +kernel
    cases made : ofProgram mixed with
    | error misfit =>
        rw [made] at dump
        cases dump
    | ok rom =>
        rw [made] at dump
        have shown : rom.hexdump = mixedDump := Option.some.inj dump
        obtain ⟨_, _, filled, persists, told⟩ := program_fills_memory mixed
        obtain ⟨holds, padded⟩ := filled rom made
        obtain ⟨again, made', same⟩ := padded (by decide)
        exact ⟨rom, again, rfl, shown, holds, persists rom, made',
          ((told again rom).mp same).trans shown⟩
  · have place : (ofProgram outsized).mapError Misfit.addr = .error 1 := by decide +kernel
    cases failed : ofProgram outsized with
    | ok rom =>
        rw [failed] at place
        cases place
    | error misfit =>
        rw [failed] at place
        have one : misfit.addr = 1 := Except.error.inj place
        have complaint := (program_fills_memory outsized).2.1 misfit failed
        exact ⟨misfit, rfl, congrArg Int.ofNat one, complaint⟩

theorem long_word_breaks_off :
    ∃ misfit, ofProgram [.firstLong] = .error misfit ∧
      misfit.failure = .breach .longNumber := by
  have outside : ¬ Datum.firstLong.IsByte := by
    rw [Datum.firstLong, Datum.isByte_int]
    intro bounds
    have room : 10 ^ 3 ≤ 10 ^ Datum.maxDigits := Nat.pow_le_pow_right (by decide) (by decide)
    generalize 10 ^ Datum.maxDigits = limit at room bounds
    omega
  have refused := ofProgram_refused [] .firstLong [] (by simp) outside (by decide)
  exact ⟨_, refused, Failure.showing_hidden _ Datum.firstLong_hidden⟩

end Rom

end FourBit
