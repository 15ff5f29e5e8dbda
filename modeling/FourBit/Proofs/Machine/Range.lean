import FourBit.Instruction.Operation
import FourBit.Proofs.Machine.Failure

namespace FourBit

namespace Ports

structure InRange (ports : Ports) : Prop where
  lastIn : ∀ n ∈ ports.lastIn, 0 ≤ n ∧ n < 16
  lastOut : ∀ n ∈ ports.lastOut, 0 ≤ n ∧ n < 16
  written : ∀ n ∈ ports.written, 0 ≤ n ∧ n < 16
  heard : ∀ n ∈ ports.heard, 0 ≤ n ∧ n < 16

theorem start_inRange : start.InRange := by
  constructor <;> simp [start]

theorem clear_inRange (ports : Ports) (inside : ports.InRange) : ports.clear.InRange :=
  { inside with lastIn := by simp [clear], lastOut := by simp [clear] }

theorem read_inRange (supplier : Supplier) (ports : Ports) (inside : ports.InRange) :
    (ports.read supplier).1.InRange := by
  unfold read
  split
  · exact { inside with lastIn := by simp }
  · split
    · rename_i value nibble
      have latched : ∀ n ∈ some (value : Int), 0 ≤ n ∧ n < 16 := by
        rintro n ⟨⟩
        exact fin_range value
      exact { inside with lastIn := latched }
    · exact { inside with lastIn := by simp }

theorem write_inRange (sink? : Option Sink) (value : Int) (ports : Ports)
    (inside : ports.InRange) : (ports.write sink? value).1.InRange := by
  have small := nibble_range value
  have latched : ∀ n ∈ some (nibble value), 0 ≤ n ∧ n < 16 := by
    rintro n ⟨⟩
    exact small
  have written : ∀ n ∈ nibble value :: ports.written, 0 ≤ n ∧ n < 16 :=
    List.forall_mem_cons.mpr ⟨small, inside.written⟩
  have heard : ∀ n ∈ nibble value :: ports.heard, 0 ≤ n ∧ n < 16 :=
    List.forall_mem_cons.mpr ⟨small, inside.heard⟩
  unfold write
  cases sink? with
  | none => exact { inside with lastOut := latched, written := written }
  | some sink => exact ⟨inside.lastIn, latched, written, heard⟩

end Ports

theorem Operation.ofFields_of_decode (byte : Fin 256) (i : Instruction)
    (decoded : Instruction.decode (byte : Nat) = .ok i) :
    ofFields ((byte / 16 : Nat) : Int) ((byte % 16 : Nat) : Int) = .ok (ofInstruction i) := by
  rw [Instruction.decode_byte] at decoded
  split at decoded
  · rename_i j assigned
    cases decoded
    have halves := congrArg Fin.val (Instruction.byte_of_ofByte? assigned)
    simp only [Instruction.byte] at halves
    have high : (byte / 16 : Nat) = i.opcode.code := by omega
    have low : (byte % 16 : Nat) = i.operand := by omega
    have small : 0 ≤ ((i.operand : Nat) : Int) ∧ ((i.operand : Nat) : Int) ≤ 15 := by omega
    have same : Fin.ofNat 16 (i.operand : Nat) = i.operand := Fin.ofNat_val_eq_self i.operand
    rw [high, low, ofFields, if_pos small, Int.toNat_natCast, same]
    rfl
  · cases decoded

namespace Machine

variable (rom : Rom) (devices : Devices)

structure InRange (m : Machine) : Prop where
  cpu : m.cpu.InRange
  ports : m.ports.InRange

theorem start_within : start.InRange := ⟨Cpu.start_inRange, Ports.start_inRange⟩

theorem execute_within (i : Instruction) (m : Machine) (inside : m.InRange) :
    (execute devices i m).1.InRange := by
  refine ⟨execute_inRange devices i m inside.cpu, ?_⟩
  rcases execute_ports devices i m with same | read | ⟨value, written⟩
  · rw [same]
    exact inside.ports
  · rw [read]
    exact Ports.read_inRange devices.supplier m.ports inside.ports
  · rw [written]
    exact Ports.write_inRange devices.sink? value m.ports inside.ports

theorem turn_within (m : Machine) (inside : m.InRange) : (m.turn rom devices).1.InRange := by
  unfold turn
  split
  · exact inside
  · exact execute_within devices _ _ ⟨inside.cpu, Ports.clear_inRange _ inside.ports⟩

/-- A turn in which everything is looked at where it is used: the address by the memory, the word by
the decoder, the low half by the operation made of the two halves, and the high half when an
instruction is sought for it. -/
def checkedTurn (m : Machine) : Machine × Option Failure :=
  match rom.read m.cpu.pc with
  | .error fault => (m, some (.fault fault))
  | .ok cell =>
    match Instruction.decode (cell.value : Nat) with
    | .error error => (m, some (.fault error.fault))
    | .ok _ =>
      match Operation.ofFields ((cell.value / 16 : Nat) : Int) ((cell.value % 16 : Nat) : Int) with
      | .error breach => (m, some (.breach breach))
      | .ok op => executeOperation devices op ⟨m.cpu, m.ports.clear⟩

theorem checkedTurn_eq_turn (m : Machine) : m.checkedTurn rom devices = m.turn rom devices := by
  unfold checkedTurn turn fetch
  cases rom.read m.cpu.pc with
  | error fault => rfl
  | ok cell =>
      cases decoded : Instruction.decode (cell.value : Nat) with
      | error error => simp only [decoded]
      | ok i =>
          simp only [decoded, Operation.ofFields_of_decode cell.value i decoded, executeOperation,
            Operation.instruction?_ofInstruction]

end Machine

end FourBit
