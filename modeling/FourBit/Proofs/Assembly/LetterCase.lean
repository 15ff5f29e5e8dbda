import FourBit.Proofs.Assembly.Refusal
import FourBit.Proofs.Text.LowerCase

namespace FourBit

theorem mapError_bind {α β ε δ : Type} (view : ε → δ) (first : Except ε α)
    (rest : α → Except ε β) :
    (first >>= rest).mapError view = first.mapError view >>= fun a => (rest a).mapError view := by
  cases first <;> rfl

namespace Reference

def CodeLine.lowered (line : CodeLine) : CodeLine :=
  ⟨line.label?, line.statement?.map (List.map Text.lowered)⟩

end Reference

namespace Assembly

open Text (Caseless lowered toLower_ignored)

theorem caseless_separator : Caseless isSeparator :=
  toLower_ignored isSeparator (by decide +kernel)

theorem tokens_lowered (t : Text) : tokens t.lowered = (tokens t).map lowered := by
  rw [tokens, Text.splitOnP_lowered caseless_separator, List.filter_map, tokens]
  simp only [Function.comp_def, Text.isEmpty_lowered]

namespace Line

theorem caseless_code : Caseless fun c => c != ';' && c != '#' :=
  toLower_ignored (fun c => c != ';' && c != '#') (by decide +kernel)

theorem caseless_start : Caseless isNameStart := toLower_ignored isNameStart (by decide +kernel)

theorem caseless_part : Caseless isNamePart := toLower_ignored isNamePart (by decide +kernel)

theorem caseless_colon : Caseless (· == ':') := toLower_ignored (· == ':') (by decide +kernel)

theorem withoutComment_lowered (raw : Text) :
    withoutComment raw.lowered = (withoutComment raw).lowered :=
  Text.takeWhile_lowered caseless_code raw

theorem splitLabel_lowered (t : Text) :
    splitLabel? t.lowered = (splitLabel? t).map (Prod.map lowered lowered) := by
  cases t with
  | nil => rfl
  | cons c rest =>
      have behind := Text.dropWhile_lowered caseless_part rest
      have front := Text.takeWhile_lowered caseless_part rest
      simp only [lowered, List.map_cons] at behind front ⊢
      simp only [splitLabel?, caseless_start c, behind, front]
      cases start : isNameStart c with
      | false => rfl
      | true =>
          cases rest.dropWhile isNamePart with
          | nil => rfl
          | cons d after =>
              by_cases colon : d = ':'
              · subst colon
                rfl
              · have other : d.toLower ≠ ':' := by simpa [colon] using caseless_colon d
                simp [colon, other]

theorem contents_lowered (number : Nat) (raw : Text) :
    (read number raw.lowered).contents.lowered = (read number raw).contents.lowered := by
  have body (t : Text) :
      (if t.lowered.isEmpty then none else some (tokens t.lowered)).map (List.map lowered) =
        (if t.isEmpty then none else some (tokens t)).map (List.map lowered) := by
    rw [Text.isEmpty_lowered, tokens_lowered]
    split
    · rfl
    · simp only [Option.map_some, List.map_map, Function.comp_def, Text.lowered_lowered]
  simp only [read, withoutComment_lowered, Text.trim_lowered, splitLabel_lowered]
  cases splitLabel? (withoutComment raw).trim with
  | none =>
      simp only [Option.map_none, contents, Reference.CodeLine.lowered]
      rw [body]
  | some parts =>
      simp only [Option.map_some, Prod.map, contents, Reference.CodeLine.lowered,
        Text.upper_lowered, Text.trim_lowered]
      rw [body]

end Line

theorem literal_lowered (t : Text) : Literal.read? t.lowered = Literal.read? t := by
  have same : t.lowered.trim.map Char.toLower = t.trim.map Char.toLower := by
    rw [Text.trim_lowered]
    exact Text.lowered_lowered t.trim
  simp only [Literal.read?, same]

section Operands

variable (labels : List (Text × Nat)) (addr : Nat) (mnemonic : Mnemonic) (operand : Text)

theorem readRegister_lowered : (readRegister mnemonic operand.lowered).mapError Complaint.kind? =
    (readRegister mnemonic operand).mapError Complaint.kind? := by
  rw [readRegister, Text.upper_lowered, readRegister]
  cases registerOfName? operand.upper <;> rfl

theorem readImmediate_lowered : (readImmediate operand.lowered).mapError Complaint.kind? =
    (readImmediate operand).mapError Complaint.kind? := by
  rw [readImmediate, literal_lowered, readImmediate]
  cases Literal.read? operand with
  | none => rfl
  | some value =>
      by_cases inside : 0 ≤ value ∧ value ≤ 15
      · simp only [inside, and_self, if_true]
      · simp only [inside, if_false]
        rfl

theorem readTarget_lowered : (readTarget labels operand.lowered).mapError Complaint.kind? =
    (readTarget labels operand).mapError Complaint.kind? := by
  have first : operand.lowered.head?.any Text.isDigitLike =
      operand.head?.any Text.isDigitLike := by
    cases operand with
    | nil => rfl
    | cons c rest => exact Text.caseless_digit c
  rw [readTarget, first, Text.upper_lowered, readTarget]
  split
  · exact readImmediate_lowered operand
  · cases labels.lookup operand.upper <;> rfl

theorem encode_count (operands : List Text) (wrong : operands.length ≠ mnemonic.operandCount) :
    encode labels addr mnemonic operands = .error (.operandCount mnemonic operands.length) := by
  unfold encode
  split <;> first | exact (wrong rfl).elim | rfl

theorem encode_lowered (operands : List Text) :
    (encode labels addr mnemonic (operands.map lowered)).mapError Complaint.kind? =
      (encode labels addr mnemonic operands).mapError Complaint.kind? := by
  by_cases count : operands.length = mnemonic.operandCount
  · cases mnemonic with
    | add =>
        obtain ⟨target, value, rfl⟩ := List.length_eq_two.mp count
        simp only [List.map_cons, List.map_nil, encode, mapError_bind, readRegister_lowered,
          readImmediate_lowered]
    | mov =>
        obtain ⟨target, source, rfl⟩ := List.length_eq_two.mp count
        simp only [List.map_cons, List.map_nil, encode, mapError_bind, readRegister_lowered,
          Text.upper_lowered]
        cases registerOfName? source.upper with
        | some other => rfl
        | none => simp only [mapError_bind, readImmediate_lowered]
    | inp =>
        obtain ⟨target, rfl⟩ := List.length_eq_one_iff.mp count
        simp only [List.map_cons, List.map_nil, encode, mapError_bind, readRegister_lowered]
    | out =>
        obtain ⟨source, rfl⟩ := List.length_eq_one_iff.mp count
        simp only [List.map_cons, List.map_nil, encode, Text.upper_lowered]
        cases registerOfName? source.upper with
        | some register => cases register <;> rfl
        | none => simp only [mapError_bind, readImmediate_lowered]
    | jmp =>
        obtain ⟨target, rfl⟩ := List.length_eq_one_iff.mp count
        simp only [List.map_cons, List.map_nil, encode, mapError_bind, readTarget_lowered]
    | jnc =>
        obtain ⟨target, rfl⟩ := List.length_eq_one_iff.mp count
        simp only [List.map_cons, List.map_nil, encode, mapError_bind, readTarget_lowered]
    | hlt =>
        obtain rfl := List.length_eq_zero_iff.mp count
        rfl
  · have wrong : (operands.map lowered).length ≠ mnemonic.operandCount := by
      rwa [List.length_map]
    rw [encode_count labels addr mnemonic operands count, encode_count labels addr mnemonic _ wrong]
    rfl

end Operands

end Assembly

end FourBit
