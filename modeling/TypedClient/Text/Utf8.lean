import TypedClient.Text.Basic

/-! Text as bytes and back. -/

namespace TypedClient

abbrev Bytes := List UInt8

namespace Utf8

open Text

inductive Fault
  /-- So many bytes from an index on begin no character. -/
  | invalid (count index : Nat)
  /-- The bytes end within a character. -/
  | incomplete (index : Nat)
  deriving DecidableEq, Repr

def Fault.message : Fault → Text
  | invalid count index =>
    "invalid utf-8 sequence of " ++ ofNat count ++ " bytes from index " ++ ofNat index
  | incomplete index => "incomplete utf-8 byte sequence from index " ++ ofNat index

/-- A character of which some bytes have been read. -/
structure OpenChar where
  start : Nat
  taken : Nat
  owed : Nat
  /-- The least and the greatest byte that may come next. -/
  low : Nat
  high : Nat
  value : Nat
  deriving DecidableEq, Repr

/-- What the first byte of a character of more than one byte begins. -/
def openWith? (start byte : Nat) : Option OpenChar :=
  if 0xC2 ≤ byte ∧ byte ≤ 0xDF then some ⟨start, 1, 1, 0x80, 0xBF, byte - 0xC0⟩
  else if 0xE0 ≤ byte ∧ byte ≤ 0xEF then
    some ⟨start, 1, 2, if byte = 0xE0 then 0xA0 else 0x80, if byte = 0xED then 0x9F else 0xBF,
      byte - 0xE0⟩
  else if 0xF0 ≤ byte ∧ byte ≤ 0xF4 then
    some ⟨start, 1, 3, if byte = 0xF0 then 0x90 else 0x80, if byte = 0xF4 then 0x8F else 0xBF,
      byte - 0xF0⟩
  else none

def OpenChar.extend (c : OpenChar) (byte : Nat) : OpenChar :=
  ⟨c.start, c.taken + 1, c.owed - 1, 0x80, 0xBF, 64 * c.value + (byte - 0x80)⟩

/-- The characters of bytes from an index on, within a character or between two. -/
def decodeFrom (index : Nat) (current : Option OpenChar) : Bytes → Except Fault Text
  | [] =>
    match current with
    | none => .ok []
    | some c => .error (.incomplete c.start)
  | byte :: rest =>
    match current with
    | none =>
      if byte.toNat < 0x80 then
        (decodeFrom (index + 1) none rest).map (Char.ofNat byte.toNat :: ·)
      else
        match openWith? index byte.toNat with
        | some c => decodeFrom (index + 1) (some c) rest
        | none => .error (.invalid 1 index)
    | some c =>
      if c.low ≤ byte.toNat ∧ byte.toNat ≤ c.high then
        let extended := c.extend byte.toNat
        if extended.owed = 0 then
          (decodeFrom (index + 1) none rest).map (Char.ofNat extended.value :: ·)
        else decodeFrom (index + 1) (some extended) rest
      else .error (.invalid c.taken c.start)

def decode (bytes : Bytes) : Except Fault Text := decodeFrom 0 none bytes

def encode (text : Text) : Bytes := text.flatMap String.utf8EncodeChar

end Utf8

end TypedClient
