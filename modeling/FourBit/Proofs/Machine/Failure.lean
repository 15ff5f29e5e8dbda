import FourBit.Proofs.Machine.Execution
import FourBit.Proofs.Shown

namespace FourBit

/-- A device raises a failure when it is called. -/
inductive Devices.Raises (devices : Devices) (failure : Failure) : Prop
  | supplier (asked : Nat) (raised : devices.supplier asked = .error failure) :
      Raises devices failure
  | sink (sink : Sink) (values : List Int) (present : devices.sink? = some sink)
      (raised : sink values = some failure) : Raises devices failure

theorem fetch_unassigned (rom : Rom) (addr : Int) (fault : Fault) (low : 0 ≤ addr)
    (high : addr < 16) (missing : fetch rom addr = .error fault) :
    ∃ (place : Nat) (byte : Fin 256), addr = place ∧ rom.bytes[place]? = some byte ∧
      Instruction.ofByte? byte = none ∧ fault = (DecodeError.unassigned byte).fault := by
  obtain ⟨place, rfl⟩ := Int.eq_ofNat_of_zero_le low
  have size := rom.length_eq
  have bound : place < rom.cells.length := by omega
  have present : rom.cells[place]? = some rom.cells[place] := List.getElem?_eq_getElem bound
  rw [fetch_at rom place _ present] at missing
  cases assigned : Instruction.ofByte? rom.cells[place].value with
  | some i =>
      rw [assigned] at missing
      cases missing
  | none =>
      rw [assigned] at missing
      cases missing
      refine ⟨place, rom.cells[place].value, rfl, ?_, assigned, rfl⟩
      rw [Rom.bytes, List.getElem?_map, present, Option.map_some]

theorem fetch_of_unassigned (rom : Rom) (addr : Nat) (byte : Fin 256)
    (stored : rom.bytes[addr]? = some byte) (unassigned : Instruction.ofByte? byte = none) :
    fetch rom addr = .error (DecodeError.unassigned byte).fault := by
  rw [Rom.bytes, List.getElem?_map] at stored
  obtain ⟨cell, present, rfl⟩ := Option.map_eq_some_iff.mp stored
  rw [fetch_at rom addr cell present, unassigned]

namespace Machine

variable (rom : Rom) (devices : Devices)

/-- Why a turn of a machine fails, with what failure, and which values it writes before it does. -/
inductive Fails (m : Machine) : Failure → List Int → Prop
  | word (addr : Nat) (byte : Fin 256) (here : m.cpu.pc = addr)
      (stored : rom.bytes[addr]? = some byte) (unassigned : Instruction.ofByte? byte = none) :
      Fails m (.fault (DecodeError.unassigned byte).fault) []
  | supplier (cell : Cell) (i : Instruction) (failure : Failure)
      (fetched : fetch rom m.cpu.pc = .ok (cell, i)) (input : i.opcode = .inA ∨ i.opcode = .inB)
      (raised : devices.supplier m.ports.asked = .error failure) : Fails m failure []
  | sample (cell : Cell) (i : Instruction) (sample : Datum)
      (fetched : fetch rom m.cpu.pc = .ok (cell, i)) (input : i.opcode = .inA ∨ i.opcode = .inB)
      (given : devices.supplier m.ports.asked = .ok sample) (large : sample.nibble? = none)
      (shown : sample.isShown = true) : Fails m (.fault (Ports.sampleFault sample)) []
  | hidden (cell : Cell) (i : Instruction) (sample : Datum)
      (fetched : fetch rom m.cpu.pc = .ok (cell, i)) (input : i.opcode = .inA ∨ i.opcode = .inB)
      (given : devices.supplier m.ports.asked = .ok sample) (hidden : sample.isShown = false) :
      Fails m (.breach .longNumber) []
  | sink (cell : Cell) (i : Instruction) (sink : Sink) (value : Int) (failure : Failure)
      (fetched : fetch rom m.cpu.pc = .ok (cell, i))
      (output : i.opcode = .outB ∨ i.opcode = .outIm) (present : devices.sink? = some sink)
      (raised : sink (value :: m.ports.heard) = some failure) : Fails m failure [value]

structure Leaves (m : Machine) (written : List Int) (left : Machine) : Prop where
  cpu : left.cpu = { m.cpu with outPort := written.headD m.cpu.outPort }
  outputs : left.ports.outputs = m.ports.outputs ++ written

theorem leaves_of_clear (m left : Machine) (written : List Int)
    (leaves : Leaves ⟨m.cpu, m.ports.clear⟩ written left) : m.Leaves written left :=
  ⟨leaves.cpu, leaves.outputs⟩

theorem receive_failed (register : Register) (m left : Machine) (failure : Failure)
    (received : m.receive devices register = (left, some failure)) :
    (devices.supplier m.ports.asked = .error failure ∨
      ∃ sample, devices.supplier m.ports.asked = .ok sample ∧ sample.nibble? = none ∧
        failure = Ports.sampleFailure sample) ∧
      m.Leaves [] left := by
  have kept (ports : Ports) : ports.outputs = ports.outputs ++ [] := (List.append_nil _).symm
  cases given : devices.supplier m.ports.asked with
  | error raised =>
      simp only [receive, Ports.read, given] at received
      cases received
      exact ⟨.inl rfl, rfl, kept m.ports⟩
  | ok sample =>
      cases nibble : sample.nibble? with
      | some value =>
          simp only [receive, Ports.read, given, nibble] at received
          cases received
      | none =>
          simp only [receive, Ports.read, given, nibble] at received
          cases received
          exact ⟨.inr ⟨sample, rfl, nibble, rfl⟩, rfl, kept m.ports⟩

theorem emit_failed (value : Int) (m left : Machine) (failure : Failure)
    (small : 0 ≤ value ∧ value < 16)
    (emitted : m.emit devices value = (left, some failure)) :
    (∃ sink, devices.sink? = some sink ∧ sink (value :: m.ports.heard) = some failure) ∧
      m.Leaves [value] left := by
  have whole : nibble value = value := nibble_of_range value small.1 small.2
  cases present : devices.sink? with
  | none =>
      simp only [emit, Ports.write, present] at emitted
      cases emitted
  | some sink =>
      cases raised : sink (value :: m.ports.heard) with
      | none =>
          simp only [emit, Ports.write, present, whole, raised] at emitted
          cases emitted
      | some failure' =>
          simp only [emit, Ports.write, present, whole, raised] at emitted
          cases emitted
          exact ⟨⟨sink, rfl, raised⟩, rfl, by simp [Ports.outputs]⟩

theorem execute_fails (m left : Machine) (cell : Cell) (i : Instruction) (failure : Failure)
    (inside : m.cpu.InRange) (fetched : fetch rom m.cpu.pc = .ok (cell, i))
    (executed : execute devices i ⟨m.cpu, m.ports.clear⟩ = (left, some failure)) :
    ∃ written, m.Fails rom devices failure written ∧ m.Leaves written left := by
  obtain ⟨opcode, operand⟩ := i
  cases opcode with
  | inA | inB =>
      obtain ⟨refused | ⟨sample, given, large, rfl⟩, leaves⟩ :=
        receive_failed devices _ _ left failure executed
      · exact ⟨[], .supplier cell _ failure fetched (by simp) refused,
          leaves_of_clear m left [] leaves⟩
      · refine ⟨[], ?_, leaves_of_clear m left [] leaves⟩
        cases shown : sample.isShown with
        | true =>
            rw [Ports.sampleFailure, Failure.showing_shown _ shown]
            exact .sample cell _ sample fetched (by simp) given large shown
        | false =>
            rw [Ports.sampleFailure, Failure.showing_hidden _ shown]
            exact .hidden cell _ sample fetched (by simp) given shown
  | outB =>
      obtain ⟨⟨sink, present, raised⟩, leaves⟩ :=
        emit_failed devices m.cpu.b _ left failure inside.b executed
      exact ⟨_, .sink cell _ sink _ failure fetched (by simp) present raised,
        leaves_of_clear m left _ leaves⟩
  | outIm =>
      obtain ⟨⟨sink, present, raised⟩, leaves⟩ :=
        emit_failed devices operand _ left failure (fin_range operand) executed
      exact ⟨_, .sink cell _ sink _ failure fetched (by simp) present raised,
        leaves_of_clear m left _ leaves⟩
  | addA | movAB | movA | movBA | addB | movB | jmp | jnc => cases executed

theorem turn_fails (m left : Machine) (failure : Failure) (inside : m.cpu.InRange)
    (turned : m.turn rom devices = (left, some failure)) :
    ∃ written, m.Fails rom devices failure written ∧ m.Leaves written left := by
  unfold turn at turned
  split at turned
  · rename_i fault missing
    cases turned
    obtain ⟨place, byte, here, stored, unassigned, rfl⟩ :=
      fetch_unassigned rom m.cpu.pc fault inside.pc.1 inside.pc.2 missing
    exact ⟨[], .word place byte here stored unassigned, rfl, (List.append_nil _).symm⟩
  · rename_i cell i fetched
    exact execute_fails rom devices m left cell i failure inside fetched turned

/-- The machine stands at an input and is given what no message can show. -/
def Stumbles (m : Machine) : Prop :=
  ∃ cell i sample, fetch rom m.cpu.pc = .ok (cell, i) ∧ (i.opcode = .inA ∨ i.opcode = .inB) ∧
    devices.supplier m.ports.asked = .ok sample ∧ sample.isShown = false

/-- The machine itself fails only for a word that is no instruction and for a sample that is no
nibble, and only such a sample can make it break off. -/
theorem Fails.own_or_raised {m : Machine} {failure : Failure} {written : List Int}
    (fails : m.Fails rom devices failure written) :
    (∃ fault, failure = .fault fault ∧ (fault.kind = .decode ∨ fault.kind = .inputOutOfRange)) ∨
      (failure = .breach .longNumber ∧ m.Stumbles rom devices) ∨ devices.Raises failure := by
  cases fails with
  | word addr byte here stored unassigned => exact .inl ⟨_, rfl, .inl rfl⟩
  | supplier cell i _ fetched input raised => exact .inr (.inr (.supplier _ raised))
  | sample cell i sample fetched input given large => exact .inl ⟨_, rfl, .inr rfl⟩
  | hidden cell i sample fetched input given hidden =>
      exact .inr (.inl ⟨rfl, cell, i, sample, fetched, input, given, hidden⟩)
  | sink cell i sink value _ fetched output present raised =>
      exact .inr (.inr (.sink sink _ present raised))

theorem Stumbles.turn {m : Machine} (stumbles : m.Stumbles rom devices) :
    ∃ left, m.turn rom devices = (left, some (.breach .longNumber)) := by
  obtain ⟨cell, ⟨opcode, operand⟩, sample, fetched, input, given, hidden⟩ := stumbles
  have large := Datum.nibble_of_hidden hidden
  have failure : Ports.sampleFailure sample = .breach .longNumber :=
    Failure.showing_hidden _ hidden
  have asked : m.ports.clear.asked = m.ports.asked := rfl
  rcases input with rfl | rfl <;>
    simp only [Machine.turn, fetched, execute, receive, Ports.read, asked, given, large, failure,
      Prod.mk.injEq, and_true, exists_eq']

end Machine

end FourBit
