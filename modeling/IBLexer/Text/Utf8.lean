/-! UTF-8 is read one byte at a time. The first byte of a sequence fixes its length and the
range of its second byte, which is how overlong forms, surrogates and values above
U+10FFFF are refused; every later byte carries six bits. -/
namespace IBLexer.Utf8

inductive Defect where
  | incomplete (index : Nat)
  | invalid (length index : Nat)
deriving DecidableEq, Repr

def Defect.message : Defect → String
  | incomplete index => s!"incomplete utf-8 byte sequence from index {index}"
  | invalid length index => s!"invalid utf-8 sequence of {length} bytes from index {index}"

/-- A sequence that has begun: the range of its next byte, how many bytes follow that one,
the bits collected so far and the number of bytes they came from. -/
structure Pending where
  low : Nat
  high : Nat
  more : Nat
  bits : Nat
  seen : Nat
deriving DecidableEq, Repr

def Pending.ofFirst? (byte : Nat) : Option Pending :=
  if 0xC2 ≤ byte ∧ byte ≤ 0xDF then some ⟨0x80, 0xBF, 0, byte - 0xC0, 1⟩
  else if byte = 0xE0 then some ⟨0xA0, 0xBF, 1, 0, 1⟩
  else if byte = 0xED then some ⟨0x80, 0x9F, 1, byte - 0xE0, 1⟩
  else if 0xE1 ≤ byte ∧ byte ≤ 0xEF then some ⟨0x80, 0xBF, 1, byte - 0xE0, 1⟩
  else if byte = 0xF0 then some ⟨0x90, 0xBF, 2, 0, 1⟩
  else if 0xF1 ≤ byte ∧ byte ≤ 0xF3 then some ⟨0x80, 0xBF, 2, byte - 0xF0, 1⟩
  else if byte = 0xF4 then some ⟨0x80, 0x8F, 2, byte - 0xF0, 1⟩
  else none

def Pending.collect (pending : Pending) (byte : Nat) : Nat := pending.bits * 64 + (byte - 0x80)

/-- Continues after `text`, which came from the first `index` bytes; a pending sequence
begins at `index`. -/
def decodeFrom (text : String) (index : Nat) :
    Option Pending → List UInt8 → Except Defect String
  | none, [] => .ok text
  | some _, [] => .error (.incomplete index)
  | none, byte :: bytes =>
    if byte.toNat < 0x80 then decodeFrom (text.push (Char.ofNat byte.toNat)) (index + 1) none bytes
    else
      match Pending.ofFirst? byte.toNat with
      | some pending => decodeFrom text index (some pending) bytes
      | none => .error (.invalid 1 index)
  | some pending, byte :: bytes =>
    if pending.low ≤ byte.toNat ∧ byte.toNat ≤ pending.high then
      let bits := pending.collect byte.toNat
      match pending.more with
      | 0 => decodeFrom (text.push (Char.ofNat bits)) (index + pending.seen + 1) none bytes
      | more + 1 => decodeFrom text index (some ⟨0x80, 0xBF, more, bits, pending.seen + 1⟩) bytes
    else .error (.invalid pending.seen index)

def decode (bytes : List UInt8) : Except Defect String := decodeFrom "" 0 none bytes

end IBLexer.Utf8
