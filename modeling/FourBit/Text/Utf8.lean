import FourBit.Text.Basic

/-! UTF-8: bytes to characters, with the extent and the cause of the first malformed sequence. -/

namespace FourBit.Utf8

inductive Cause where
  | startByte
  | continuationByte
  | endOfData
  deriving DecidableEq, Repr

structure Malformed where
  offset : Nat
  byte : UInt8
  count : Nat
  cause : Cause
  deriving DecidableEq, Repr

def Cause.message : Cause → String
  | startByte => "invalid start byte"
  | continuationByte => "invalid continuation byte"
  | endOfData => "unexpected end of data"

def Malformed.message (m : Malformed) : String :=
  let place :=
    if m.count = 1 then
      "byte 0x" ++ String.ofList ((Nat.toDigits 16 m.byte.toNat).leftpad 2 '0') ++
        s!" in position {m.offset}"
    else s!"bytes in position {m.offset}-{m.offset + m.count - 1}"
  s!"'utf-8' codec can't decode {place}: {m.cause.message}"

/-- A character whose bytes are still coming: where it began, how many bytes were read, how many are
owed, the bounds on the next one, and the bits so far. -/
structure Pending where
  offset : Nat
  byte : UInt8
  seen : Nat
  owed : Nat
  low : Nat
  high : Nat
  bits : Nat
  deriving DecidableEq, Repr

/-- The first byte of a character of several bytes. The bounds on the second byte exclude overlong
forms, surrogates and numbers beyond the last code point. -/
def lead? (offset : Nat) (byte : UInt8) : Option Pending :=
  let n := byte.toNat
  if n < 0xC2 then none
  else if n < 0xE0 then some ⟨offset, byte, 1, 1, 0x80, 0xBF, n - 0xC0⟩
  else if n < 0xF0 then
    some ⟨offset, byte, 1, 2, if n = 0xE0 then 0xA0 else 0x80,
      if n = 0xED then 0x9F else 0xBF, n - 0xE0⟩
  else if n < 0xF5 then
    some ⟨offset, byte, 1, 3, if n = 0xF0 then 0x90 else 0x80,
      if n = 0xF4 then 0x8F else 0xBF, n - 0xF0⟩
  else none

def Pending.next (p : Pending) (byte : UInt8) : Pending :=
  { p with seen := p.seen + 1, owed := p.owed - 1, low := 0x80, high := 0xBF,
           bits := p.bits * 64 + (byte.toNat - 0x80) }

def decodeFrom (offset : Nat) : Option Pending → List UInt8 → Except Malformed Text
  | none, [] => .ok []
  | some p, [] => .error ⟨p.offset, p.byte, p.seen, .endOfData⟩
  | none, byte :: rest =>
    if byte.toNat < 0x80 then
      (decodeFrom (offset + 1) none rest).map (Char.ofNat byte.toNat :: ·)
    else match lead? offset byte with
      | some p => decodeFrom (offset + 1) (some p) rest
      | none => .error ⟨offset, byte, 1, .startByte⟩
  | some p, byte :: rest =>
    if p.low ≤ byte.toNat ∧ byte.toNat ≤ p.high then
      let q := p.next byte
      if q.owed = 0 then
        (decodeFrom (offset + 1) none rest).map (Char.ofNat q.bits :: ·)
      else decodeFrom (offset + 1) (some q) rest
    else .error ⟨p.offset, p.byte, p.seen, .continuationByte⟩

def decode (bytes : List UInt8) : Except Malformed Text := decodeFrom 0 none bytes

end FourBit.Utf8
