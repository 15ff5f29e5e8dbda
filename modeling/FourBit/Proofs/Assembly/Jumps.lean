import FourBit.Proofs.Assembly.Relisting
import FourBit.Proofs.Reference.Unlabelled

/-! Jumps: of all statements only those to labels depend on other lines, and each of these is the
jump to an address, written out. -/

namespace FourBit

open Assembly

namespace Reference

structure Located (lines : List CodeLine) (labels : List (Text × Nat)) : Prop where
  placed : ∀ name addr, (name, addr) ∈ labels ↔ Defines lines name addr
  single : ∀ name addr other, (name, addr) ∈ labels → (name, other) ∈ labels → addr = other
  named : ∀ name addr, (name, addr) ∈ labels → IsName name

def Respelt (lines : List CodeLine) (words others : List Text) : Prop :=
  ∀ form, Spells lines words form → ∀ elsewhere, Spells elsewhere others form

theorem decimal_clear (n : Fin 16) :
    ∀ c ∈ Text.decimal n, isSeparator c = false ∧ c ≠ ';' ∧ c ≠ '#' ∧ c ≠ '\n' := by
  have each : ∀ n : Fin 16, ((Text.decimal n).all fun c =>
      !isSeparator c && c != ';' && c != '#' && c != '\n') = true := by decide +kernel
  simpa [and_assoc] using List.all_eq_true.mp (each n)

namespace Paired

variable {lead first gap second trail : Text} (paired : Paired lead first gap second trail)

include paired

theorem tokens : tokens (lead ++ first ++ gap ++ second ++ trail) = [first, second] := by
  have apart : ∀ c ∈ (gap ++ second ++ trail).head?, isSeparator c = true := by
    intro c begins
    rcases List.exists_cons_of_ne_nil paired.gap_present with ⟨d, rest, rfl⟩
    cases begins
    exact paired.gap _ List.mem_cons_self
  calc
    Assembly.tokens (lead ++ first ++ gap ++ second ++ trail)
        = Assembly.tokens (lead ++ (first ++ (gap ++ second ++ trail))) := by
      simp only [List.append_assoc]
    _ = first :: Assembly.tokens (gap ++ second ++ trail) := by
      rw [tokens_gap_append lead _ paired.lead,
        tokens_word first _ paired.first_present paired.first_solid apart]
    _ = first :: Assembly.tokens second := by
      rw [tokens_append_gap _ trail paired.trail, tokens_gap_append gap second paired.gap]
    _ = [first, second] := by
      rw [tokens_solid second paired.second_present paired.second_solid]

theorem ink : ∃ c ∈ lead ++ first ++ gap ++ second ++ trail, Text.isBlank c = false := by
  rcases List.exists_cons_of_ne_nil paired.first_present with ⟨c, rest, rfl⟩
  refine ⟨c, by simp, ?_⟩
  have solid := paired.first_solid c List.mem_cons_self
  exact (Bool.or_eq_false_iff.mp solid).1

theorem number (n : Fin 16) : Paired lead first gap (Text.decimal n) trail := by
  rcases Instruction.digit_decimal n with ⟨c, rest, digits, _⟩
  exact { paired with
    second_present := digits ▸ List.cons_ne_nil c rest
    second_solid := fun c inside => (decimal_clear n c inside).1 }

end Paired

theorem paired_of_spaced (body first second : Text) (spaced : Spaced body [first, second]) :
    ∃ lead gap trail, body = lead ++ first ++ gap ++ second ++ trail ∧
      Paired lead first gap second trail := by
  cases spaced with
  | word lead _ rest _ separating present solid apart more =>
      cases more with
      | word gap _ trail _ between present' solid' _ last =>
          cases last with
          | gap _ behind =>
              refine ⟨lead, gap, trail, by simp only [List.append_assoc], separating, present,
                solid, ?_, between, present', solid', behind⟩
              -- without a gap the second word would go on with the first
              rintro rfl
              rcases List.exists_cons_of_ne_nil present' with ⟨c, others, rfl⟩
              have separates := apart c rfl
              exact Bool.false_ne_true ((solid' c List.mem_cons_self).symm.trans separates)

variable {lines : List CodeLine} {labels : List (Text × Nat)}

theorem Spells.head {words : List Text} {form : Form} (spells : Spells lines words form) :
    ∃ (word : Text) (operands : List Text) (mnemonic : Mnemonic),
      words = word :: operands ∧ word.upper = mnemonic.name := by
  cases spells with
  | add word _ _ _ _ mnemonic => exact ⟨word, _, .add, rfl, mnemonic⟩
  | load word _ _ _ _ mnemonic => exact ⟨word, _, .mov, rfl, mnemonic⟩
  | copyAB word _ _ mnemonic => exact ⟨word, _, .mov, rfl, mnemonic⟩
  | copyBA word _ _ mnemonic => exact ⟨word, _, .mov, rfl, mnemonic⟩
  | input word _ _ mnemonic => exact ⟨word, _, .inp, rfl, mnemonic⟩
  | outputB word _ mnemonic => exact ⟨word, _, .out, rfl, mnemonic⟩
  | output word _ _ mnemonic => exact ⟨word, _, .out, rfl, mnemonic⟩
  | halt word mnemonic => exact ⟨word, _, .hlt, rfl, mnemonic⟩
  | jump word _ _ mnemonic => exact ⟨word, _, .jmp, rfl, mnemonic⟩
  | jumpNoCarry word _ _ mnemonic => exact ⟨word, _, .jnc, rfl, mnemonic⟩

theorem Spells.no_colon {words : List Text} {form : Form} (spells : Spells lines words form) :
    ∀ word ∈ words.head?, ':' ∉ word := by
  rcases spells.head with ⟨word, operands, mnemonic, rfl, named⟩
  rintro _ ⟨⟩ colon
  have kept : ':' ∈ word.upper := List.mem_flatMap.mpr ⟨':', colon, by decide⟩
  rw [named] at kept
  cases mnemonic <;> revert kept <;> decide

theorem plain_of_tokens (body : Text) (clean : ∀ word ∈ (tokens body).head?, ':' ∉ word) :
    Labelled body none body := by
  apply Labelled.plain
  -- the colon behind a name separates nothing, and so it would be in the first word
  rintro margin name rest blank named rfl
  have separating : ∀ c ∈ margin, isSeparator c = true :=
    fun c inside => isSeparator_of_isBlank c (blank c inside)
  have solid : ∀ c ∈ name ++ [':'], isSeparator c = false :=
    List.forall_mem_append.mpr ⟨named.solid, by decide⟩
  rcases tokens_front (name ++ [':']) rest (by simp) solid with ⟨more, others, front⟩
  have first : tokens (margin ++ name ++ ':' :: rest) = (name ++ [':'] ++ more) :: others := by
    calc
      tokens (margin ++ name ++ ':' :: rest)
          = tokens (margin ++ (name ++ [':'] ++ rest)) := by
        simp only [List.append_assoc, List.singleton_append]
      _ = tokens (name ++ [':'] ++ rest) := tokens_gap_append margin _ separating
      _ = (name ++ [':'] ++ more) :: others := front
  rw [first] at clean
  exact clean _ rfl (by simp)

theorem Spells.jump_inv {word target : Text} {form : Form}
    (spells : Spells lines [word, target] form) (jumps : IsJump word) :
    ∃ n, Aims lines target n ∧ (∀ place, form.word place % 16 = n) ∧
      ∀ elsewhere other, Aims elsewhere other n → Spells elsewhere [word, other] form := by
  cases spells with
  | input _ _ _ mnemonic => rcases jumps with other | other <;> cases mnemonic.symm.trans other
  | outputB _ _ mnemonic => rcases jumps with other | other <;> cases mnemonic.symm.trans other
  | output _ _ _ mnemonic => rcases jumps with other | other <;> cases mnemonic.symm.trans other
  | jump _ _ n mnemonic aims =>
      refine ⟨n, aims, ?_, fun elsewhere other => .jump word other n mnemonic⟩
      intro place
      simp only [Form.word, Form.code, Form.operand]
      omega
  | jumpNoCarry _ _ n mnemonic aims =>
      refine ⟨n, aims, ?_, fun elsewhere other => .jumpNoCarry word other n mnemonic⟩
      intro place
      simp only [Form.word, Form.code, Form.operand]
      omega

namespace Located

variable (located : Located lines labels)

include located

/-- The name of a label is never taken for a number. -/
theorem aims_label (target : Text) (addr : Nat) (n : Fin 16)
    (known : (target.upper, addr) ∈ labels) (aims : Aims lines target n) : addr = n := by
  cases aims with
  | number c rest _ digit _ =>
      have letter := Line.letter_of_named c rest (located.named _ addr known)
      exact (Bool.false_ne_true (letter.symm.trans digit)).elim
  | label c rest _ _ defined =>
      exact located.single _ addr n known ((located.placed _ _).mpr defined)

theorem aims_elsewhere (elsewhere : List CodeLine) (word target : Text) (n : Fin 16)
    (jumps : IsJump word) (free : ∀ addr, ¬ RefersTo labels [word, target] addr)
    (aims : Aims lines target n) : Aims elsewhere target n := by
  cases aims with
  | number c rest _ digit valued => exact .number c rest n digit valued
  | label c rest _ _ defined =>
      have known := (located.placed _ _).mpr defined
      exact (free n ⟨word, c :: rest, rfl, jumps, known⟩).elim

theorem keeps (words : List Text) (free : ∀ addr, ¬ RefersTo labels words addr) :
    Respelt lines words words := by
  intro form spells elsewhere
  cases spells with
  | add word target value register n mnemonic named valued =>
      exact .add word target value register n mnemonic named valued
  | load word target value register n mnemonic named valued =>
      exact .load word target value register n mnemonic named valued
  | copyAB word target source mnemonic named other =>
      exact .copyAB word target source mnemonic named other
  | copyBA word target source mnemonic named other =>
      exact .copyBA word target source mnemonic named other
  | input word target register mnemonic named => exact .input word target register mnemonic named
  | outputB word source mnemonic named => exact .outputB word source mnemonic named
  | output word value n mnemonic valued => exact .output word value n mnemonic valued
  | halt word mnemonic => exact .halt word mnemonic
  | jump word target n mnemonic aims =>
      exact .jump word target n mnemonic
        (located.aims_elsewhere elsewhere word target n (.inl mnemonic) free aims)
  | jumpNoCarry word target n mnemonic aims =>
      exact .jumpNoCarry word target n mnemonic
        (located.aims_elsewhere elsewhere word target n (.inr mnemonic) free aims)

theorem numbers (word target : Text) (addr : Nat) (form : Form)
    (refers : RefersTo labels [word, target] addr) (spells : Spells lines [word, target] form) :
    ∃ n : Fin 16, addr = n ∧ Respelt lines [word, target] [word, Text.decimal n] := by
  rcases refers with ⟨_, _, ⟨⟩, jumps, known⟩
  rcases spells.jump_inv jumps with ⟨n, aims, _, _⟩
  have same := located.aims_label target addr n known aims
  refine ⟨n, same, ?_⟩
  -- whatever form the words spell, its target is the one address of the label
  intro other respelt elsewhere
  rcases respelt.jump_inv jumps with ⟨n', aims', _, change⟩
  have same' := located.aims_label target addr n' known aims'
  cases Fin.ext (same.symm.trans same')
  exact change elsewhere _ (Instruction.aims_decimal elsewhere n)

end Located

end Reference

namespace Assembly

open Reference

section Assembled

variable (source : Text) (program : Program) (assembled : assemble source = .ok program)

include assembled

theorem located_of_assemble :
    Located ((readLines source).map Line.contents) program.labels := by
  refine ⟨mem_labels_iff source program assembled, label_single source program assembled, ?_⟩
  intro name addr known
  exact (label_named source program assembled name addr known).1

/-- The low bits of a jump to a label are the address of the label. -/
theorem word_of_reference (place addr : Nat) (words : List Text)
    (found : (statementsOf ((readLines source).map Line.contents))[place]? = some words)
    (refers : RefersTo program.labels words addr) :
    ∃ word, program.words[place]? = some word ∧ (word : Nat) % 16 = addr := by
  have located := located_of_assemble source program assembled
  have denotes := denotes_of_assemble source program assembled
  rcases denotes.table place words found with ⟨form, spells, kept⟩
  rcases refers with ⟨mnemonic, target, rfl, jumps, known⟩
  rcases spells.jump_inv jumps with ⟨n, aims, low, _⟩
  rw [List.getElem?_map, Option.map_eq_some_iff] at kept
  rcases kept with ⟨word, stands, value⟩
  refine ⟨word, stands, ?_⟩
  calc
    (word : Nat) % 16 = form.word place % 16 := congrArg (· % 16) value
    _ = n := low place
    _ = addr := (located.aims_label target addr n known aims).symm

end Assembled

end Assembly

end FourBit
