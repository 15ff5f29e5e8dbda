import FourBit.Proofs.Assembly.Precedence

namespace FourBit

open Reference

namespace Reference

/-- The address of a line is where its statement stands or would stand: the number of statements on
earlier lines. -/
def addressOf (lines : List CodeLine) (index : Nat) : Nat :=
  (statementsOf (lines.take index)).length

theorem Mistaken.not_repeated {lines : List CodeLine} {words : List Text} {kind : FaultKind}
    (mistaken : Mistaken lines words kind) : kind ≠ .duplicateLabel := by
  cases mistaken with
  | mnemonic | target | operands =>
      intro same
      cases same

theorem Reports.address {lines : List CodeLine} {kind : FaultKind} {addr index : Nat}
    (reports : Reports lines kind addr (some index)) :
    addr = if kind = .duplicateLabel then 0 else addressOf lines index := by
  cases reports with
  | duplicate => rfl
  | tooLarge _ full =>
      obtain ⟨_, _, _, count⟩ := full
      exact count.symm
  | statement _ _ _ _ _ _ _ _ _ _ mistaken => rw [if_neg mistaken.not_repeated, addressOf]

theorem Reports.inside {lines : List CodeLine} {kind : FaultKind} {addr index : Nat}
    (reports : Reports lines kind addr (some index)) : index < lines.length := by
  have inside {line : CodeLine} (present : lines[index]? = some line) : index < lines.length :=
    (List.getElem?_eq_some_iff.mp present).1
  cases reports with
  | duplicate _ again =>
      obtain ⟨_, present, _⟩ := again
      exact inside present
  | tooLarge _ full =>
      obtain ⟨_, present, _⟩ := full
      exact inside present
  | statement _ _ _ _ _ _ present => exact inside present

end Reference

namespace Assembly

section Raised

variable (source : Text) (lines : List CodeLine) (reads : Reads source lines)
  (rejection : Rejection) (fault : Fault) (refused : assemble source = .error rejection)
  (raised : rejection.failure = .fault fault)

include reads refused raised

theorem placed_of_raised (number : Int) (shown : fault.line? = some number) :
    ∃ index < lines.length, number = ((index + 1 : Nat) : Int) ∧
      fault.addr = if fault.kind = .duplicateLabel then 0 else (addressOf lines index : Int) := by
  obtain ⟨addr, place?, reports, placed, shows⟩ :=
    reports_of_raised source lines reads rejection fault refused raised
  cases place? with
  | none => cases shows.1.symm.trans shown
  | some index =>
      obtain ⟨_, _, line, _⟩ := shows
      refine ⟨index, reports.inside, Option.some.inj (shown.symm.trans line), ?_⟩
      rw [placed, reports.address]
      split <;> rfl

end Raised

/-- An error with the number of a line has the address of that line, whatever its kind, unless a
label comes again there: then the address is zero, and so it is not that of the line if a statement
stands before it. -/
theorem misplaced_iff_repeated (source : Text) (lines : List CodeLine)
    (reads : Reads source lines) (rejection : Rejection) (fault : Fault) (number : Int)
    (refused : assemble source = .error rejection) (raised : rejection.failure = .fault fault)
    (shown : fault.line? = some number) :
    ∃ index < lines.length, number = ((index + 1 : Nat) : Int) ∧
      fault.addr = (if fault.kind = .duplicateLabel then 0 else (addressOf lines index : Int)) ∧
      (fault.addr ≠ addressOf lines index ↔
        fault.kind = .duplicateLabel ∧ 0 < addressOf lines index) := by
  obtain ⟨index, inside, place, address⟩ :=
    placed_of_raised source lines reads rejection fault refused raised number shown
  refine ⟨index, inside, place, address, ?_⟩
  rw [address]
  by_cases again : fault.kind = .duplicateLabel
  · rw [if_pos again, and_iff_right again]
    omega
  · rw [if_neg again]
    exact iff_of_false (fun apart => apart rfl) fun both => again both.1

def comesAgain : Text := "loop: out 1\nloop: out 2".toList

/-- Its error is about the second line, which has the address one, and shows the address zero. -/
theorem repeated_label_misplaced :
    ¬ ∀ source lines rejection fault (index : Nat), Reads source lines →
      assemble source = .error rejection → rejection.failure = .fault fault →
      fault.line? = some ((index + 1 : Nat) : Int) → fault.addr = addressOf lines index := by
  intro placed
  have reads := (reads_source_iff comesAgain _).mpr rfl
  have refused : assemble comesAgain =
      .error ⟨.duplicateLabel "LOOP".toList, 0, some (2, "loop: out 2".toList)⟩ := by
    decide +kernel
  have zero := placed comesAgain _ _ _ 1 reads refused rfl rfl
  have one : addressOf ((readLines comesAgain).map Line.contents) 1 = 1 := by decide +kernel
  rw [one] at zero
  cases zero

def jumpsAstray : Text := "in a ; first\n\nagain:\n  mov b, 3\n\tjmp nowhere\n  mov b".toList

theorem misplaced_iff_repeated_jumpsAstray :
    ∃ lines rejection fault, Reads jumpsAstray lines ∧ assemble jumpsAstray = .error rejection ∧
      rejection.failure = .fault fault ∧ fault.kind = .undefinedLabel ∧ fault.line? = some 5 ∧
      addressOf lines 4 = 2 ∧ fault.addr = 2 := by
  have reads := (reads_source_iff jumpsAstray _).mpr rfl
  have refused : assemble jumpsAstray =
      .error ⟨.unknownLabel "nowhere".toList, 2, some (5, "jmp nowhere".toList)⟩ := by
    decide +kernel
  obtain ⟨index, inside, place, address, _⟩ :=
    misplaced_iff_repeated jumpsAstray _ reads _ _ 5 refused rfl rfl
  obtain rfl : index = 4 := by omega
  have two : addressOf ((readLines jumpsAstray).map Line.contents) 4 = 2 := by decide +kernel
  exact ⟨_, _, _, reads, refused, rfl, rfl, rfl, two, address.trans (by rw [two]; rfl)⟩

end Assembly

end FourBit
