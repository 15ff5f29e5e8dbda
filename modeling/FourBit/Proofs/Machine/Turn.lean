import FourBit.Proofs.Orbit
import FourBit.Run.Basic

namespace FourBit

/-- All that a processor shows: the registers, the carry, the program counter and the latches of the
ports. -/
structure Registers where
  a : Int
  b : Int
  carry : Int
  pc : Int
  inPort : Int
  outPort : Int
  deriving DecidableEq, Repr

def Cpu.registers (cpu : Cpu) : Registers :=
  ⟨cpu.a, cpu.b, cpu.carry, cpu.pc, cpu.inPort, cpu.outPort⟩

theorem fetch_bounds (rom : Rom) (addr : Int) (cell : Cell) (i : Instruction)
    (fetched : fetch rom addr = .ok (cell, i)) : 0 ≤ addr ∧ addr < 16 := by
  by_contra outside
  simp only [fetch, Rom.read, outside, dite_false] at fetched
  cases fetched

theorem fetch_ok (rom : Rom) (addr : Int) (cell : Cell) (i : Instruction)
    (fetched : fetch rom addr = .ok (cell, i)) :
    rom.read addr = .ok cell ∧ Instruction.decode (cell.value : Nat) = .ok i := by
  unfold fetch at fetched
  split at fetched
  · cases fetched
  · rename_i cell' present
    split at fetched
    · cases fetched
    · rename_i i' decoded
      cases fetched
      exact ⟨present, decoded⟩

theorem Instruction.decode_byte (byte : Fin 256) :
    decode ((byte : Nat) : Int) =
      match ofByte? byte with
      | some i => .ok i
      | none => .error (.unassigned byte) := by
  have bounds : 0 ≤ ((byte : Nat) : Int) ∧ ((byte : Nat) : Int) ≤ 255 := by omega
  have same : Fin.ofNat 256 (byte : Nat) = byte := Fin.ofNat_val_eq_self byte
  cases found : ofByte? byte with
  | none => simp only [decode, bounds, and_self, if_true, Int.toNat_natCast, same, found]
  | some i => simp only [decode, bounds, and_self, if_true, Int.toNat_natCast, same, found]

theorem Rom.read_at (rom : Rom) (addr : Nat) (cell : Cell)
    (present : rom.cells[addr]? = some cell) : rom.read addr = .ok cell := by
  obtain ⟨bound, same⟩ := List.getElem?_eq_some_iff.mp present
  have size := rom.length_eq
  have inside : 0 ≤ (addr : Int) ∧ (addr : Int) < 16 := by omega
  rw [read, dif_pos inside]
  exact congrArg Except.ok same

theorem fetch_at (rom : Rom) (addr : Nat) (cell : Cell) (present : rom.cells[addr]? = some cell) :
    fetch rom addr =
      match Instruction.ofByte? cell.value with
      | some i => .ok (cell, i)
      | none => .error (DecodeError.unassigned cell.value).fault := by
  simp only [fetch, rom.read_at addr cell present, Instruction.decode_byte]
  cases Instruction.ofByte? cell.value <;> rfl

namespace Machine

def turn (rom : Rom) (devices : Devices) (m : Machine) : Machine × Option Failure :=
  match fetch rom m.cpu.pc with
  | .error fault => (m, some (.fault fault))
  | .ok (_, i) => execute devices i ⟨m.cpu, m.ports.clear⟩

def next? (rom : Rom) (devices : Devices) (m : Machine) : Option Machine :=
  match m.turn rom devices with
  | (after, none) => some after
  | (_, some _) => none

def after? (rom : Rom) (devices : Devices) : Nat → Option Machine :=
  orbit (next? rom devices) start

def spins (rom : Rom) (m : Machine) : Bool :=
  match fetch rom m.cpu.pc with
  | .error _ => false
  | .ok (_, i) => i.isSelfLoop m.cpu.pc m.cpu.carry

def halt (m : Machine) : Machine := ⟨{ m.cpu with halted := true }, m.ports⟩

theorem next_iff (rom : Rom) (devices : Devices) (m after : Machine) :
    m.next? rom devices = some after ↔ m.turn rom devices = (after, none) := by
  unfold next?
  split
  · rename_i reached equation
    rw [equation]
    simp only [Option.some.injEq, Prod.mk.injEq, and_true]
  · rename_i left failure equation
    rw [equation]
    simp only [Prod.mk.injEq, reduceCtorEq, and_false]

theorem next_none_iff (rom : Rom) (devices : Devices) (m : Machine) :
    m.next? rom devices = none ↔
      ∃ left failure, m.turn rom devices = (left, some failure) := by
  unfold next?
  split
  · rename_i reached equation
    simp only [equation, reduceCtorEq, Prod.mk.injEq, and_false, exists_false]
  · rename_i left failure equation
    rw [equation]
    exact ⟨fun _ => ⟨left, failure, rfl⟩, fun _ => rfl⟩

theorem next_fetch (rom : Rom) (devices : Devices) (m after : Machine)
    (moved : m.next? rom devices = some after) :
    ∃ cell i, fetch rom m.cpu.pc = .ok (cell, i) ∧
      execute devices i ⟨m.cpu, m.ports.clear⟩ = (after, none) := by
  have turned := (next_iff rom devices m after).mp moved
  unfold turn at turned
  split at turned
  · cases turned
  · rename_i cell i fetched
    exact ⟨cell, i, fetched, turned⟩

theorem next_of_execute (rom : Rom) (devices : Devices) (m after : Machine) (cell : Cell)
    (i : Instruction) (fetched : fetch rom m.cpu.pc = .ok (cell, i))
    (executed : execute devices i ⟨m.cpu, m.ports.clear⟩ = (after, none)) :
    m.next? rom devices = some after := by
  apply (next_iff rom devices m after).mpr
  simp only [turn, fetched, executed]

theorem spins_of_fetch (rom : Rom) (m : Machine) (cell : Cell) (i : Instruction)
    (fetched : fetch rom m.cpu.pc = .ok (cell, i)) :
    m.spins rom = i.isSelfLoop m.cpu.pc m.cpu.carry := by
  simp only [spins, fetched]

end Machine

end FourBit
