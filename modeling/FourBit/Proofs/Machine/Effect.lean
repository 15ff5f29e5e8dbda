import Mathlib.Data.Int.ModEq
import FourBit.Instruction.Operation
import FourBit.Proofs.Machine.Replay

/-! The effect of one operation on a machine in any state whatever, also one that no run comes to:
what it writes, and that all else stays as it was. -/

namespace FourBit

/-- What an instruction is to do: the register that it writes, with the number to be cut to four
bits, the carry, what it takes in, what it puts out, and where it jumps. -/
structure Effect where
  register? : Option (Register × Int)
  carry? : Option Int
  input? : Option Int
  output? : Option Int
  target? : Option Int
  deriving DecidableEq, Repr

namespace Effect

def none : Effect := ⟨.none, .none, .none, .none, .none⟩

def load (register : Register) (value : Int) : Effect :=
  { none with register? := some (register, value) }

def sum (register : Register) (value operand : Int) : Effect :=
  { load register (value + operand) with carry? := some (if value + operand > 15 then 1 else 0) }

def take (register : Register) (sample : Int) : Effect :=
  { load register sample with input? := some sample }

def put (value : Int) : Effect := { none with output? := some value }

def jump (target : Int) : Effect := { none with target? := some target }

end Effect

def Instruction.effect (i : Instruction) (cpu : Cpu) (sample : Int) : Effect :=
  match i.opcode with
  | .addA => .sum .a cpu.a i.operand
  | .addB => .sum .b cpu.b i.operand
  | .movA => .load .a i.operand
  | .movB => .load .b i.operand
  | .movAB => .load .a cpu.b
  | .movBA => .load .b cpu.a
  | .inA => .take .a sample
  | .inB => .take .b sample
  | .outB => .put cpu.b
  | .outIm => .put i.operand
  | .jmp => .jump i.operand
  | .jnc => if cpu.carry = 0 then .jump i.operand else .none

namespace Cpu

structure Undergoes (effect : Effect) (cpu after : Cpu) : Prop where
  written : ∀ register value, effect.register? = some (register, value) →
    after.get register ≡ value [ZMOD 16] ∧ 0 ≤ after.get register ∧ after.get register < 16
  kept : ∀ register, (∀ value, effect.register? ≠ some (register, value)) →
    after.get register = cpu.get register
  carry : after.carry = effect.carry?.getD cpu.carry
  inPort : after.inPort = effect.input?.getD cpu.inPort
  outPort : after.outPort = effect.output?.getD cpu.outPort
  pc : after.pc = effect.target?.getD (cpu.pc + 1) % 16
  halted : after.halted = cpu.halted

end Cpu

namespace Ports

/-- Ports after an effect. An input is one question to the supplier; an output is one more value at
the end of the outputs, cut to four bits, and the sink is given it if there is one. -/
structure Undergoes (devices : Devices) (effect : Effect) (ports after : Ports) : Prop where
  asked : after.asked = ports.asked + if effect.input?.isSome then 1 else 0
  lastIn : after.lastIn = effect.input?.or ports.lastIn
  lastOut : after.lastOut = (effect.output?.map (· % 16)).or ports.lastOut
  outputs : after.outputs = ports.outputs ++ (effect.output?.map (· % 16)).toList
  heard : after.heard =
    if devices.sink?.isSome then (effect.output?.map (· % 16)).toList ++ ports.heard
    else ports.heard

end Ports

def Devices.Offers (devices : Devices) (asked : Nat) (sample : Int) : Prop :=
  devices.supplier asked = .ok (.int sample) ∧ 0 ≤ sample ∧ sample ≤ 15

/-- What an operation comes to. Without an instruction for its code nothing changes. An input to
which no sample is offered fails, and leaves no trace but the question that was asked. All else is
completed, with its effect. -/
inductive Machine.ExecutesTo (devices : Devices) (op : Operation) (m : Machine) :
    Machine × Option Failure → Prop
  | unknown (missing : op.instruction? = none) :
      ExecutesTo devices op m (m, some (.breach (.noExecutor op.code)))
  | completed (i : Instruction) (sample : Int) (after : Machine)
      (known : op.instruction? = some i)
      (offered : i.opcode = .inA ∨ i.opcode = .inB → devices.Offers m.ports.asked sample)
      (cpu : m.cpu.Undergoes (i.effect m.cpu sample) after.cpu)
      (ports : m.ports.Undergoes devices (i.effect m.cpu sample) after.ports) :
      ExecutesTo devices op m (after, none)
  | refused (i : Instruction) (failure : Failure) (known : op.instruction? = some i)
      (input : i.opcode = .inA ∨ i.opcode = .inB)
      (unoffered : ∀ sample, ¬ devices.Offers m.ports.asked sample)
      (reason : devices.supplier m.ports.asked = .error failure ∨
        ∃ given, devices.supplier m.ports.asked = .ok given ∧
          failure = Ports.sampleFailure given) :
      ExecutesTo devices op m
        (⟨m.cpu, { m.ports with asked := m.ports.asked + 1, lastIn := none }⟩, some failure)

theorem nibble_written (value : Int) :
    nibble value ≡ value [ZMOD 16] ∧ 0 ≤ nibble value ∧ nibble value < 16 :=
  ⟨Int.mod_modEq value 16, nibble_range value⟩

namespace Cpu

variable (cpu : Cpu) (register : Register) (value operand : Int)

@[simp] theorem get_set (other : Register) :
    (cpu.set register value).get other =
      if other = register then nibble value else cpu.get other := by
  cases register <;> cases other <;> rfl

@[simp] theorem get_advance (other : Register) : cpu.advance.get other = cpu.get other := by
  cases other <;> rfl

theorem undergoes_load : cpu.Undergoes (.load register value) (cpu.set register value).advance where
  written := by
    rintro _ _ ⟨⟩
    simpa using nibble_written value
  kept := by
    intro other free
    have different : other ≠ register := by
      rintro rfl
      exact free value rfl
    simp [different]
  carry := by cases register <;> rfl
  inPort := by cases register <;> rfl
  outPort := by cases register <;> rfl
  pc := by cases register <;> rfl
  halted := by cases register <;> rfl

theorem undergoes_sum :
    cpu.Undergoes (.sum register (cpu.get register) operand) (cpu.add register operand).advance :=
  { undergoes_load cpu register (cpu.get register + operand) with carry := rfl }

theorem undergoes_take (sample : Int) :
    cpu.Undergoes (.take register sample)
      ({ cpu with inPort := sample }.set register sample).advance :=
  { undergoes_load { cpu with inPort := sample } register sample with }

theorem undergoes_none : cpu.Undergoes .none cpu.advance where
  written := by rintro _ _ ⟨⟩
  kept := fun other _ => get_advance cpu other
  carry := rfl
  inPort := rfl
  outPort := rfl
  pc := rfl
  halted := rfl

theorem undergoes_put : cpu.Undergoes (.put value) { cpu with outPort := value }.advance :=
  { undergoes_none { cpu with outPort := value } with }

theorem undergoes_jump : cpu.Undergoes (.jump value) (cpu.jump value) :=
  { undergoes_none cpu with pc := rfl }

end Cpu

namespace Ports

variable (devices : Devices) (effect : Effect) (ports : Ports)

theorem undergoes_quiet (noInput : effect.input? = .none) (noOutput : effect.output? = .none) :
    ports.Undergoes devices effect ports where
  asked := by simp [noInput]
  lastIn := by simp [noInput]
  lastOut := by simp [noOutput]
  outputs := by simp [noOutput]
  heard := by simp [noOutput]

theorem undergoes_take (register : Register) (sample : Int) :
    ports.Undergoes devices (.take register sample)
      { ports with asked := ports.asked + 1, lastIn := some sample } where
  asked := rfl
  lastIn := rfl
  lastOut := rfl
  outputs := (List.append_nil _).symm
  heard := by
    show ports.heard = if _ then [] ++ ports.heard else ports.heard
    simp

theorem undergoes_put (value : Int) :
    ports.Undergoes devices (.put value) (ports.write devices.sink? value).1 where
  asked := by cases devices.sink? <;> rfl
  lastIn := by cases devices.sink? <;> rfl
  lastOut := by cases devices.sink? <;> rfl
  outputs := by
    rw [Ports.outputs, write_written, List.reverse_cons]
    rfl
  heard := by cases devices.sink? <;> rfl

end Ports

namespace Machine

variable (devices : Devices) (op : Operation) (m : Machine)

theorem receive_offers (register : Register) :
    (∃ sample, devices.Offers m.ports.asked sample ∧
      m.receive devices register =
        (⟨({ m.cpu with inPort := sample }.set register sample).advance,
          { m.ports with asked := m.ports.asked + 1, lastIn := some sample }⟩, none)) ∨
    ∃ failure, (∀ sample, ¬ devices.Offers m.ports.asked sample) ∧
      (devices.supplier m.ports.asked = .error failure ∨
        ∃ given, devices.supplier m.ports.asked = .ok given ∧
          failure = Ports.sampleFailure given) ∧
      m.receive devices register =
        (⟨m.cpu, { m.ports with asked := m.ports.asked + 1, lastIn := none }⟩, some failure) := by
  cases given : devices.supplier m.ports.asked with
  | error failure =>
      refine .inr ⟨failure, ?_, .inl rfl, by simp only [receive, Ports.read, given]⟩
      rintro sample ⟨offered, _⟩
      cases given.symm.trans offered
  | ok datum =>
      cases small : datum.nibble? with
      | some n =>
          obtain rfl := Datum.eq_of_nibble datum n small
          exact .inl ⟨n, ⟨given, by omega⟩, receive_of_sample devices register m _ n given small⟩
      | none =>
          refine .inr ⟨_, ?_, .inr ⟨datum, rfl, rfl⟩,
            receive_of_large devices register m datum given small⟩
          rintro sample ⟨offered, bounds⟩
          cases given.symm.trans offered
          simp only [Datum.nibble?, bounds, and_self, if_true] at small
          cases small

theorem executesTo_of_effect (i : Instruction) (effect : Effect) (after : Machine)
    (known : op.instruction? = some i) (mute : ¬ (i.opcode = .inA ∨ i.opcode = .inB))
    (table : i.effect m.cpu 0 = effect) (cpu : m.cpu.Undergoes effect after.cpu)
    (ports : m.ports.Undergoes devices effect after.ports) :
    m.ExecutesTo devices op (after, none) := by
  subst table
  exact .completed i 0 after known (fun input => (mute input).elim) cpu ports

theorem executesTo_of_input (i : Instruction) (register : Register)
    (known : op.instruction? = some i) (input : i.opcode = .inA ∨ i.opcode = .inB)
    (table : ∀ sample, i.effect m.cpu sample = .take register sample) :
    m.ExecutesTo devices op (m.receive devices register) := by
  rcases receive_offers devices m register with
    ⟨sample, offered, received⟩ | ⟨failure, unoffered, reason, received⟩
  · rw [received]
    apply ExecutesTo.completed i sample _ known (fun _ => offered)
    · rw [table sample]
      exact Cpu.undergoes_take m.cpu register sample
    · rw [table sample]
      exact Ports.undergoes_take devices m.ports register sample
  · rw [received]
    exact .refused i failure known input unoffered reason

section Quiet

variable (quiet : ∀ sink ∈ devices.sink?, ∀ values, sink values = none)

include quiet

theorem emit_quiet (value : Int) :
    m.emit devices value =
      (⟨{ m.cpu with outPort := value }.advance, (m.ports.write devices.sink? value).1⟩, none) := by
  unfold emit Ports.write
  cases present : devices.sink? with
  | none => rfl
  | some sink => simp only [quiet sink present]

/-- From every state of the machine an operation comes to what the table of effects says of it, if
the sink refuses nothing. -/
theorem operation_takes_effect : m.ExecutesTo devices op (m.executeOperation devices op) := by
  cases known : op.instruction? with
  | none =>
      simp only [executeOperation, known]
      exact .unknown known
  | some i =>
      simp only [executeOperation, known]
      have unread (effect : Effect) (noInput : effect.input? = .none)
          (noOutput : effect.output? = .none) : m.ports.Undergoes devices effect m.ports :=
        Ports.undergoes_quiet devices effect m.ports noInput noOutput
      obtain ⟨opcode, operand⟩ := i
      cases opcode with
      | inA => exact executesTo_of_input devices op m _ .a known (by simp) fun _ => rfl
      | inB => exact executesTo_of_input devices op m _ .b known (by simp) fun _ => rfl
      | addA | addB =>
          exact executesTo_of_effect devices op m _ _ _ known (by simp) rfl
            (Cpu.undergoes_sum m.cpu _ operand) (unread _ rfl rfl)
      | movAB | movBA | movA | movB =>
          exact executesTo_of_effect devices op m _ _ _ known (by simp) rfl
            (Cpu.undergoes_load m.cpu _ _) (unread _ rfl rfl)
      | outB | outIm =>
          simp only [execute, emit_quiet devices m quiet]
          exact executesTo_of_effect devices op m _ _ _ known (by simp) rfl
            (Cpu.undergoes_put m.cpu _) (Ports.undergoes_put devices m.ports _)
      | jmp =>
          exact executesTo_of_effect devices op m _ _ _ known (by simp) rfl
            (Cpu.undergoes_jump m.cpu operand) (unread _ rfl rfl)
      | jnc =>
          by_cases clear : m.cpu.carry = 0
          · simp only [execute, clear, if_true]
            exact executesTo_of_effect devices op m _ _ _ known (by simp) (if_pos clear)
              (Cpu.undergoes_jump m.cpu operand) (unread _ rfl rfl)
          · simp only [execute, clear, if_false]
            exact executesTo_of_effect devices op m _ _ _ known (by simp) (if_neg clear)
              (Cpu.undergoes_none m.cpu) (unread _ rfl rfl)

end Quiet

def wild : Machine := ⟨⟨-3, 37, 5, -20, 99, -7, true⟩, ⟨4, none, some 200, [300], [-1]⟩⟩

def truthful : Devices := ⟨fun _ => .ok (.truth true), some fun _ => none⟩

theorem operation_takes_effect_wild :
    (∀ sink ∈ truthful.sink?, ∀ values, sink values = none) ∧
      ∃ after left failure,
        wild.executeOperation truthful ⟨9, 0⟩ = (after, none) ∧ after.cpu.outPort = 37 ∧
        after.ports.outputs = [300, 5] ∧ after.cpu.pc = 13 ∧
        wild.ExecutesTo truthful ⟨9, 0⟩ (after, none) ∧
        wild.executeOperation truthful ⟨2, 0⟩ = (left, some failure) ∧ left.cpu = wild.cpu ∧
        wild.ExecutesTo truthful ⟨2, 0⟩ (left, some failure) ∧
        wild.ExecutesTo truthful ⟨8, 0⟩ (wild, some (.breach (.noExecutor 8))) := by
  have quiet : ∀ sink ∈ truthful.sink?, ∀ values, sink values = none := by
    rintro _ ⟨⟩ values
    rfl
  have effect (op : Operation) := operation_takes_effect truthful op wild quiet
  exact ⟨quiet, _, _, _, rfl, rfl, rfl, rfl, effect ⟨9, 0⟩, rfl, rfl, effect ⟨2, 0⟩, effect ⟨8, 0⟩⟩

end Machine

end FourBit
