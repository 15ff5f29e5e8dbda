import FourBit.Proofs.Assembly.Tokens
import FourBit.Proofs.Text.UpperCase

namespace FourBit

theorem bind_ok_iff {α β ε : Type} (first : Except ε α) (rest : α → Except ε β) (b : β) :
    (first >>= rest) = .ok b ↔ ∃ a, first = .ok a ∧ rest a = .ok b := by
  cases first with
  | error e => simp [bind, Except.bind]
  | ok a => simp [bind, Except.bind]

namespace Assembly

open Reference

theorem registerOfName_iff (t : Text) (register : Register) :
    registerOfName? t = some register ↔ t = registerName register := by
  unfold registerOfName?
  constructor
  · intro found
    split at found
    · rename_i isA
      cases found
      exact isA
    · split at found
      · rename_i isB
        cases found
        exact isB
      · cases found
  · intro same
    cases register <;> simp [same, registerName]

theorem ofName_iff (t : Text) (mnemonic : Mnemonic) :
    Mnemonic.ofName? t = some mnemonic ↔ t = mnemonic.name := by
  constructor
  · intro found
    have same : (mnemonic.name == t) = true := by simpa using List.find?_some found
    exact (beq_iff_eq.mp same).symm
  · rintro rfl
    cases mnemonic <;> rfl

theorem readRegister_ok_iff (mnemonic : Mnemonic) (operand : Text) (register : Register) :
    readRegister mnemonic operand = .ok register ↔ operand.upper = registerName register := by
  rw [← registerOfName_iff]
  unfold readRegister
  cases registerOfName? operand.upper <;> simp

theorem readImmediate_ok_iff (operand : Text) (n : Fin 16) :
    readImmediate operand = .ok n ↔ IsLiteral operand n := by
  unfold readImmediate IsLiteral
  cases Literal.read? operand with
  | none => simp
  | some value =>
      by_cases range : 0 ≤ value ∧ value ≤ 15
      · simp only [range, and_self, if_true, Except.ok.injEq, Fin.ext_iff, Fin.ofNat,
          Option.some.injEq]
        omega
      · simp only [range, if_false, reduceCtorEq, Option.some.injEq, false_iff]
        omega

theorem literal_not_register (operand : Text) (n : Fin 16) (valued : IsLiteral operand n) :
    registerOfName? operand.upper = none := by
  cases found : registerOfName? operand.upper with
  | none => rfl
  | some register =>
      have named := (registerOfName_iff _ register).mp found
      cases register with
      | a =>
          rcases Text.upper_eq_letter operand 'A' (.inl rfl) named with rfl | rfl <;> cases valued
      | b =>
          rcases Text.upper_eq_letter operand 'B' (.inr rfl) named with rfl | rfl <;> cases valued

theorem readTarget_ok_iff (labels : List (Text × Nat)) (lines : List CodeLine)
    (known : ∀ name addr, labels.lookup name = some addr ↔ Defines lines name addr)
    (operand : Text) (n : Fin 16) (present : operand ≠ []) :
    readTarget labels operand = .ok n ↔ Aims lines operand n := by
  rcases List.exists_cons_of_ne_nil present with ⟨c, rest, rfl⟩
  unfold readTarget
  cases digit : Text.isDigitLike c with
  | true =>
      simp only [List.head?_cons, Option.any_some, digit, if_true, readImmediate_ok_iff]
      constructor
      · exact .number c rest n digit
      · intro aims
        cases aims with
        | number _ _ _ _ valued => exact valued
        | label _ _ _ letter _ => cases digit.symm.trans letter
  | false =>
      simp only [List.head?_cons, Option.any_some, digit, Bool.false_eq_true, if_false]
      have reads : Aims lines (c :: rest) n ↔
          labels.lookup (Text.upper (c :: rest)) = some n.val := by
        rw [known]
        constructor
        · intro aims
          cases aims with
          | number _ _ _ shown _ => cases digit.symm.trans shown
          | label _ _ _ _ defined => exact defined
        · exact .label c rest n digit
      rw [reads]
      cases labels.lookup (Text.upper (c :: rest)) with
      | none => simp
      | some target =>
          by_cases inside : target < 16
          · simp only [inside, if_true, Except.ok.injEq, Fin.ext_iff, Fin.ofNat, Option.some.injEq]
            omega
          · simp only [inside, if_false, reduceCtorEq, Option.some.injEq, false_iff]
            omega

def instructionOf (addr : Nat) : Form → Instruction
  | .add register n => ⟨addTo register, n⟩
  | .load register n => ⟨loadTo register, n⟩
  | .copy register => ⟨copyTo register, 0⟩
  | .input register => ⟨inputTo register, 0⟩
  | .outputB => ⟨.outB, 0⟩
  | .output n => ⟨.outIm, n⟩
  | .halt => ⟨.jmp, Fin.ofNat 16 addr⟩
  | .jump n => ⟨.jmp, n⟩
  | .jumpNoCarry n => ⟨.jnc, n⟩

theorem byte_instructionOf (addr : Nat) (form : Form) (inside : addr < 16) :
    ((instructionOf addr form).byte : Nat) = form.word addr := by
  have same : addr % 16 = addr := Nat.mod_eq_of_lt inside
  cases form with
  | add register n | load register n | copy register | input register =>
      cases register <;> rfl
  | outputB | output n | jump n | jumpNoCarry n => rfl
  | halt => exact congrArg (240 + ·) same

section Encoding

variable (labels : List (Text × Nat)) (lines : List CodeLine)
  (known : ∀ name addr, labels.lookup name = some addr ↔ Defines lines name addr) (addr : Nat)

include known

theorem spells_of_encode (mnemonic : Mnemonic) (word : Text) (operands : List Text)
    (i : Instruction) (named : word.upper = mnemonic.name) (present : ∀ t ∈ operands, t ≠ [])
    (encoded : encode labels addr mnemonic operands = .ok i) :
    ∃ form, Spells lines (word :: operands) form ∧ i = instructionOf addr form := by
  unfold encode at encoded
  split at encoded
  · rename_i target value
    rcases (bind_ok_iff _ _ _).mp encoded with ⟨register, first, tail⟩
    rcases (bind_ok_iff _ _ _).mp tail with ⟨n, second, last⟩
    cases last
    have target := (readRegister_ok_iff _ _ _).mp first
    have valued := (readImmediate_ok_iff _ _).mp second
    exact ⟨_, .add word _ _ register n named target valued, rfl⟩
  · rename_i target source
    rcases (bind_ok_iff _ _ _).mp encoded with ⟨register, first, tail⟩
    have target := (readRegister_ok_iff _ _ _).mp first
    split at tail
    · rename_i other found
      have copied := (registerOfName_iff _ other).mp found
      split at tail
      · cases tail
      · rename_i different
        cases tail
        cases register with
        | a =>
            cases other with
            | a => exact (different rfl).elim
            | b => exact ⟨_, .copyAB word _ _ named target copied, rfl⟩
        | b =>
            cases other with
            | a => exact ⟨_, .copyBA word _ _ named target copied, rfl⟩
            | b => exact (different rfl).elim
    · rcases (bind_ok_iff _ _ _).mp tail with ⟨n, second, last⟩
      cases last
      have valued := (readImmediate_ok_iff _ _).mp second
      exact ⟨_, .load word _ _ register n named target valued, rfl⟩
  · rename_i target
    rcases (bind_ok_iff _ _ _).mp encoded with ⟨register, first, last⟩
    cases last
    exact ⟨_, .input word _ register named ((readRegister_ok_iff _ _ _).mp first), rfl⟩
  · rename_i source
    split at encoded
    · rename_i found
      cases encoded
      exact ⟨_, .outputB word _ named ((registerOfName_iff _ _).mp found), rfl⟩
    · cases encoded
    · rcases (bind_ok_iff _ _ _).mp encoded with ⟨n, first, last⟩
      cases last
      exact ⟨_, .output word _ n named ((readImmediate_ok_iff _ _).mp first), rfl⟩
  · cases encoded
    exact ⟨_, .halt word named, rfl⟩
  · rename_i target
    rcases (bind_ok_iff _ _ _).mp encoded with ⟨n, first, last⟩
    cases last
    have aims := (readTarget_ok_iff labels lines known target n (present _ (by simp))).mp first
    exact ⟨_, .jump word target n named aims, rfl⟩
  · rename_i target
    rcases (bind_ok_iff _ _ _).mp encoded with ⟨n, first, last⟩
    cases last
    have aims := (readTarget_ok_iff labels lines known target n (present _ (by simp))).mp first
    exact ⟨_, .jumpNoCarry word target n named aims, rfl⟩
  · cases encoded

theorem encode_of_spells (word : Text) (operands : List Text) (form : Form)
    (spells : Spells lines (word :: operands) form) (present : ∀ t ∈ operands, t ≠ []) :
    ∃ mnemonic, word.upper = Mnemonic.name mnemonic ∧
      encode labels addr mnemonic operands = .ok (instructionOf addr form) := by
  cases spells with
  | add _ target value register n mnemonic named valued =>
      refine ⟨.add, mnemonic, ?_⟩
      have first := (readRegister_ok_iff .add target register).mpr named
      have second := (readImmediate_ok_iff value n).mpr valued
      simp only [encode, first, second, bind, Except.bind, instructionOf]
  | load _ target value register n mnemonic named valued =>
      refine ⟨.mov, mnemonic, ?_⟩
      have first := (readRegister_ok_iff .mov target register).mpr named
      have second := (readImmediate_ok_iff value n).mpr valued
      have number := literal_not_register value n valued
      simp only [encode, first, second, number, bind, Except.bind, instructionOf]
  | copyAB _ target source mnemonic named other =>
      refine ⟨.mov, mnemonic, ?_⟩
      have first := (readRegister_ok_iff .mov target .a).mpr named
      have second := (registerOfName_iff _ .b).mpr other
      simp only [encode, first, second, bind, Except.bind, instructionOf, reduceCtorEq, if_false]
  | copyBA _ target source mnemonic named other =>
      refine ⟨.mov, mnemonic, ?_⟩
      have first := (readRegister_ok_iff .mov target .b).mpr named
      have second := (registerOfName_iff _ .a).mpr other
      simp only [encode, first, second, bind, Except.bind, instructionOf, reduceCtorEq, if_false]
  | input _ target register mnemonic named =>
      refine ⟨.inp, mnemonic, ?_⟩
      have first := (readRegister_ok_iff .inp target register).mpr named
      simp only [encode, first, bind, Except.bind, instructionOf]
  | outputB _ source mnemonic named =>
      refine ⟨.out, mnemonic, ?_⟩
      have first := (registerOfName_iff _ .b).mpr named
      simp only [encode, first, instructionOf]
  | output _ value n mnemonic valued =>
      refine ⟨.out, mnemonic, ?_⟩
      have number := literal_not_register value n valued
      have first := (readImmediate_ok_iff value n).mpr valued
      simp only [encode, number, first, bind, Except.bind, instructionOf]
  | halt _ mnemonic => exact ⟨.hlt, mnemonic, rfl⟩
  | jump _ target n mnemonic aims =>
      refine ⟨.jmp, mnemonic, ?_⟩
      have first := (readTarget_ok_iff labels lines known target n (present _ (by simp))).mpr aims
      simp only [encode, first, bind, Except.bind, instructionOf]
  | jumpNoCarry _ target n mnemonic aims =>
      refine ⟨.jnc, mnemonic, ?_⟩
      have first := (readTarget_ok_iff labels lines known target n (present _ (by simp))).mpr aims
      simp only [encode, first, bind, Except.bind, instructionOf]

end Encoding

theorem instruction_ok_iff (labels : List (Text × Nat)) (lines : List CodeLine)
    (known : ∀ name addr, labels.lookup name = some addr ↔ Defines lines name addr)
    (statement : Statement) (i : Instruction) :
    statement.instruction labels = .ok i ↔
      ∃ form, Spells lines (tokens statement.body) form ∧
        i = instructionOf statement.addr form := by
  have present := tokens_present statement.body
  unfold Statement.instruction
  cases words : tokens statement.body with
  | nil =>
      constructor
      · intro impossible
        cases impossible
      · intro given
        rcases given with ⟨form, spells, _⟩
        cases spells
  | cons word operands =>
      rw [words] at present
      have others : ∀ t ∈ operands, t ≠ [] := (List.forall_mem_cons.mp present).2
      constructor
      · intro encoded
        simp only at encoded
        split at encoded
        · cases encoded
        · rename_i mnemonic found
          have named := (ofName_iff _ mnemonic).mp found
          exact spells_of_encode labels lines known statement.addr mnemonic word operands i named
            others encoded
      · intro given
        rcases given with ⟨form, spells, rfl⟩
        rcases encode_of_spells labels lines known statement.addr word operands form spells
          others with ⟨mnemonic, named, encoded⟩
        have found := (ofName_iff _ mnemonic).mpr named
        simp only [found, encoded]

end Assembly

end FourBit
