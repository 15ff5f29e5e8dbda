import FourBit.Proofs.Machine.Turn

namespace FourBit

def Instruction.isTaken (i : Instruction) (carry : Int) : Bool :=
  i.opcode == .jmp || (i.opcode == .jnc && carry == 0)

theorem nibble_range (n : Int) : 0 ≤ nibble n ∧ nibble n < 16 := by
  unfold nibble
  omega

theorem nibble_of_range (n : Int) (low : 0 ≤ n) (high : n < 16) : nibble n = n := by
  unfold nibble
  omega

theorem fin_range (n : Fin 16) : 0 ≤ (n : Int) ∧ (n : Int) < 16 := by
  omega

theorem nibble_operand (operand : Fin 16) : nibble (operand : Int) = operand :=
  nibble_of_range _ (by omega) (by omega)

namespace Cpu

structure InRange (cpu : Cpu) : Prop where
  a : 0 ≤ cpu.a ∧ cpu.a < 16
  b : 0 ≤ cpu.b ∧ cpu.b < 16
  carry : 0 ≤ cpu.carry ∧ cpu.carry < 2
  pc : 0 ≤ cpu.pc ∧ cpu.pc < 16
  inPort : 0 ≤ cpu.inPort ∧ cpu.inPort < 16
  outPort : 0 ≤ cpu.outPort ∧ cpu.outPort < 16

@[simp] theorem set_pc (cpu : Cpu) (register : Register) (value : Int) :
    (cpu.set register value).pc = cpu.pc := by
  cases register <;> rfl

@[simp] theorem set_halted (cpu : Cpu) (register : Register) (value : Int) :
    (cpu.set register value).halted = cpu.halted := by
  cases register <;> rfl

@[simp] theorem add_pc (cpu : Cpu) (register : Register) (value : Int) :
    (cpu.add register value).pc = cpu.pc := by
  cases register <;> rfl

@[simp] theorem add_halted (cpu : Cpu) (register : Register) (value : Int) :
    (cpu.add register value).halted = cpu.halted := by
  cases register <;> rfl

@[simp] theorem advance_pc (cpu : Cpu) : cpu.advance.pc = nibble (cpu.pc + 1) := rfl

@[simp] theorem advance_halted (cpu : Cpu) : cpu.advance.halted = cpu.halted := rfl

@[simp] theorem jump_pc (cpu : Cpu) (target : Int) : (cpu.jump target).pc = nibble target := rfl

@[simp] theorem jump_halted (cpu : Cpu) (target : Int) :
    (cpu.jump target).halted = cpu.halted := rfl

theorem start_inRange : start.InRange := by
  constructor <;> decide

theorem set_inRange (cpu : Cpu) (register : Register) (value : Int) (inside : cpu.InRange) :
    (cpu.set register value).InRange := by
  cases register with
  | a => exact { inside with a := nibble_range value }
  | b => exact { inside with b := nibble_range value }

theorem add_inRange (cpu : Cpu) (register : Register) (value : Int) (inside : cpu.InRange) :
    (cpu.add register value).InRange := by
  have written := set_inRange cpu register (cpu.get register + value) inside
  have bit : 0 ≤ (cpu.add register value).carry ∧ (cpu.add register value).carry < 2 := by
    simp only [add]
    split <;> decide
  exact { written with carry := bit }

theorem advance_inRange (cpu : Cpu) (inside : cpu.InRange) : cpu.advance.InRange :=
  { inside with pc := nibble_range _ }

theorem jump_inRange (cpu : Cpu) (target : Int) (inside : cpu.InRange) :
    (cpu.jump target).InRange :=
  { inside with pc := nibble_range _ }

end Cpu

namespace Ports

theorem read_ok (supplier : Supplier) (ports reading : Ports) (value : Int)
    (accepted : ports.read supplier = (reading, .ok value)) :
    ∃ sample n, supplier ports.asked = .ok sample ∧ sample.nibble? = some n ∧
      value = (n : Int) ∧
      reading = { ports with asked := ports.asked + 1, lastIn := some (n : Int) } := by
  unfold read at accepted
  split at accepted
  · cases accepted
  · rename_i sample given
    split at accepted
    · rename_i n nibble
      cases accepted
      exact ⟨sample, n, given, nibble, rfl, rfl⟩
    · cases accepted

theorem read_failure (supplier : Supplier) (ports waiting : Ports) (failure : Failure)
    (refused : ports.read supplier = (waiting, .error failure)) :
    supplier ports.asked = .error failure ∨
      ∃ sample, supplier ports.asked = .ok sample ∧ sample.nibble? = none ∧
        failure = sampleFailure sample := by
  unfold read at refused
  split at refused
  · rename_i failure' given
    cases refused
    exact .inl given
  · rename_i sample given
    split at refused
    · cases refused
    · rename_i nibble
      cases refused
      exact .inr ⟨sample, given, nibble, rfl⟩

theorem read_written (supplier : Supplier) (ports : Ports) :
    (ports.read supplier).1.written = ports.written := by
  unfold read
  split
  · rfl
  · split <;> rfl

theorem write_written (sink? : Option Sink) (value : Int) (ports : Ports) :
    (ports.write sink? value).1.written = nibble value :: ports.written := by
  cases sink? <;> rfl

theorem write_failure (sink? : Option Sink) (ports latched : Ports) (value : Int)
    (failure : Failure) (refused : ports.write sink? value = (latched, some failure)) :
    ∃ sink heard, sink? = some sink ∧ sink heard = some failure := by
  unfold write at refused
  cases sink? with
  | none => cases refused
  | some sink => exact ⟨sink, _, rfl, congrArg Prod.snd refused⟩

end Ports

theorem fetch_fault (rom : Rom) (addr : Int) (fault : Fault)
    (missing : fetch rom addr = .error fault) :
    fault.kind = .romAccess ∨ fault.kind = .decode := by
  unfold fetch at missing
  split at missing
  · rename_i fault' absent
    cases missing
    unfold Rom.read at absent
    split at absent
    · cases absent
    · cases absent
      exact .inl rfl
  · split at missing
    · cases missing
      exact .inr rfl
    · cases missing

namespace Machine

variable (devices : Devices)

theorem receive_ok (register : Register) (m after : Machine)
    (received : m.receive devices register = (after, none)) :
    ∃ ports value, m.ports.read devices.supplier = (ports, .ok value) ∧
      after = ⟨({ m.cpu with inPort := value }.set register value).advance, ports⟩ := by
  unfold receive at received
  split at received
  · rename_i ports value accepted
    cases received
    exact ⟨ports, value, accepted, rfl⟩
  · cases received

theorem emit_ok (value : Int) (m after : Machine)
    (emitted : m.emit devices value = (after, none)) :
    ∃ ports, m.ports.write devices.sink? value = (ports, none) ∧
      after = ⟨{ m.cpu with outPort := value }.advance, ports⟩ := by
  unfold emit at emitted
  simp only at emitted
  split at emitted
  · rename_i ports accepted
    cases emitted
    exact ⟨ports, accepted, rfl⟩
  · cases emitted

theorem receive_pc (register : Register) (m after : Machine)
    (received : m.receive devices register = (after, none)) :
    after.cpu.pc = nibble (m.cpu.pc + 1) := by
  obtain ⟨ports, value, _, rfl⟩ := receive_ok devices register m after received
  simp only [Cpu.advance_pc, Cpu.set_pc]

theorem emit_pc (value : Int) (m after : Machine)
    (emitted : m.emit devices value = (after, none)) :
    after.cpu.pc = nibble (m.cpu.pc + 1) := by
  obtain ⟨ports, _, rfl⟩ := emit_ok devices value m after emitted
  rfl

theorem receive_ports (register : Register) (m : Machine) :
    (m.receive devices register).1.ports = (m.ports.read devices.supplier).1 := by
  unfold receive
  split
  · rename_i ports value accepted
    rw [accepted]
  · rename_i ports failure refused
    rw [refused]

theorem emit_ports (value : Int) (m : Machine) :
    (m.emit devices value).1.ports = (m.ports.write devices.sink? value).1 := by
  unfold emit
  simp only
  split
  · rename_i ports accepted
    rw [accepted]
  · rename_i ports failure refused
    rw [refused]

theorem execute_ports (i : Instruction) (m : Machine) :
    (execute devices i m).1.ports = m.ports ∨
      (execute devices i m).1.ports = (m.ports.read devices.supplier).1 ∨
      ∃ value, (execute devices i m).1.ports = (m.ports.write devices.sink? value).1 := by
  obtain ⟨opcode, operand⟩ := i
  cases opcode with
  | inA | inB => exact .inr (.inl (receive_ports devices _ m))
  | outB | outIm => exact .inr (.inr ⟨_, emit_ports devices _ m⟩)
  | addA | movAB | movA | movBA | addB | movB | jmp | jnc => exact .inl rfl

theorem execute_pc (i : Instruction) (m after : Machine)
    (executed : execute devices i m = (after, none)) :
    after.cpu.pc =
      if i.isTaken m.cpu.carry then (i.operand : Int) else nibble (m.cpu.pc + 1) := by
  obtain ⟨opcode, operand⟩ := i
  cases opcode with
  | inA | inB => exact receive_pc devices _ m after executed
  | outB | outIm => exact emit_pc devices _ m after executed
  | jmp =>
      cases executed
      exact nibble_operand operand
  | jnc =>
      cases executed
      by_cases clear : m.cpu.carry = 0
      · simp [Instruction.isTaken, clear, nibble_operand]
      · simp [Instruction.isTaken, clear]
  | addA | movAB | movA | movBA | addB | movB =>
      cases executed
      simp [Instruction.isTaken]

theorem execute_halted (i : Instruction) (m : Machine) :
    (execute devices i m).1.cpu.halted = m.cpu.halted := by
  obtain ⟨opcode, operand⟩ := i
  cases opcode with
  | inA | inB =>
      simp only [execute, receive]
      split <;> simp
  | outB | outIm =>
      simp only [execute, emit]
      split <;> rfl
  | jnc =>
      simp only [execute]
      split <;> rfl
  | addA | movAB | movA | movBA | addB | movB | jmp => simp [execute]

theorem execute_taken (i : Instruction) (m : Machine) (taken : i.isTaken m.cpu.carry = true) :
    execute devices i m = (⟨{ m.cpu with pc := i.operand }, m.ports⟩, none) := by
  obtain ⟨opcode, operand⟩ := i
  cases opcode with
  | jmp => simp only [execute, Cpu.jump, nibble_operand]
  | jnc =>
      have clear : m.cpu.carry = 0 := by simpa [Instruction.isTaken] using taken
      simp only [execute, clear, if_true, Cpu.jump, nibble_operand]
  | _ => cases taken

theorem receive_inRange (register : Register) (m : Machine) (inside : m.cpu.InRange) :
    (m.receive devices register).1.cpu.InRange := by
  unfold receive
  split
  · rename_i ports value accepted
    obtain ⟨sample, n, _, _, rfl, _⟩ := Ports.read_ok _ _ _ _ accepted
    have latched : ({ m.cpu with inPort := (n : Int) } : Cpu).InRange :=
      { inside with inPort := fin_range n }
    exact Cpu.advance_inRange _ (Cpu.set_inRange _ register n latched)
  · exact inside

theorem emit_inRange (value : Int) (m : Machine) (inside : m.cpu.InRange)
    (small : 0 ≤ value ∧ value < 16) : (m.emit devices value).1.cpu.InRange := by
  have latched : ({ m.cpu with outPort := value } : Cpu).InRange := { inside with outPort := small }
  unfold emit
  simp only
  split
  · exact Cpu.advance_inRange _ latched
  · exact latched

theorem execute_inRange (i : Instruction) (m : Machine) (inside : m.cpu.InRange) :
    (execute devices i m).1.cpu.InRange := by
  obtain ⟨opcode, operand⟩ := i
  cases opcode with
  | inA | inB => exact receive_inRange devices _ m inside
  | outB => exact emit_inRange devices _ m inside inside.b
  | outIm => exact emit_inRange devices _ m inside (fin_range operand)
  | addA | addB => exact Cpu.advance_inRange _ (Cpu.add_inRange _ _ _ inside)
  | movAB | movA | movBA | movB => exact Cpu.advance_inRange _ (Cpu.set_inRange _ _ _ inside)
  | jmp => exact Cpu.jump_inRange _ _ inside
  | jnc =>
      simp only [execute]
      split
      · exact Cpu.jump_inRange _ _ inside
      · exact Cpu.advance_inRange _ inside

theorem execute_failure (i : Instruction) (m left : Machine) (failure : Failure)
    (executed : execute devices i m = (left, some failure)) :
    ((i.opcode = .inA ∨ i.opcode = .inB) ∧
        ∃ ports, m.ports.read devices.supplier = (ports, .error failure)) ∨
      ((i.opcode = .outB ∨ i.opcode = .outIm) ∧
        ∃ value ports, m.ports.write devices.sink? value = (ports, some failure)) := by
  obtain ⟨opcode, operand⟩ := i
  cases opcode with
  | inA | inB =>
      simp only [execute, receive] at executed
      split at executed
      · cases executed
      · rename_i ports failure' refused
        cases executed
        exact .inl ⟨by simp, ports, refused⟩
  | outB | outIm =>
      simp only [execute, emit] at executed
      split at executed
      · cases executed
      · rename_i ports failure' refused
        cases executed
        exact .inr ⟨by simp, _, ports, refused⟩
  | addA | movAB | movA | movBA | addB | movB | jmp | jnc => cases executed

theorem turn_halted (rom : Rom) (m : Machine) :
    (m.turn rom devices).1.cpu.halted = m.cpu.halted := by
  unfold turn
  split
  · rfl
  · exact execute_halted devices _ _

theorem turn_inRange (rom : Rom) (m : Machine) (inside : m.cpu.InRange) :
    (m.turn rom devices).1.cpu.InRange := by
  unfold turn
  split
  · exact inside
  · exact execute_inRange devices _ _ inside

/-- What holds at the start and is kept by every turn holds as long as the machine goes on. -/
theorem after_invariant (rom : Rom) (kept : Machine → Prop) (base : kept start)
    (step : ∀ m, kept m → kept (m.turn rom devices).1) (n : Nat) (m : Machine)
    (reached : after? rom devices n = some m) : kept m := by
  induction n generalizing m with
  | zero =>
      cases reached
      exact base
  | succ n ih =>
      obtain ⟨before, present, moved⟩ := (orbit_succ_iff n m).mp reached
      have turned := (next_iff rom devices before m).mp moved
      have later := step before (ih before present)
      rw [turned] at later
      exact later

theorem after_inRange (rom : Rom) (n : Nat) (m : Machine)
    (reached : after? rom devices n = some m) : m.cpu.InRange :=
  after_invariant devices rom (fun m => m.cpu.InRange) Cpu.start_inRange
    (fun m inside => turn_inRange devices rom m inside) n m reached

theorem after_running (rom : Rom) (n : Nat) (m : Machine)
    (reached : after? rom devices n = some m) : m.cpu.halted = false :=
  after_invariant devices rom (fun m => m.cpu.halted = false) rfl
    (fun m running => (turn_halted devices rom m).trans running) n m reached

end Machine

end FourBit
