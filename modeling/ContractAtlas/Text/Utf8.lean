/-
UTF-8: encoding, decoding and cutting by bytes.

The decoder is a machine that runs over the bytes.  Between characters it
waits for a lead byte; inside a character it knows which continuation bytes
are still owed.  A sequence that breaks off counts as one malformed piece,
and the byte that broke it is read afresh.
-/

namespace ContractAtlas.Text.Utf8

def encodeChar (c : Char) : List UInt8 :=
  let code := c.toNat
  if code < 0x80 then [UInt8.ofNat code]
  else if code < 0x800 then
    [UInt8.ofNat (0xC0 + code / 0x40), UInt8.ofNat (0x80 + code % 0x40)]
  else if code < 0x10000 then
    [UInt8.ofNat (0xE0 + code / 0x1000),
      UInt8.ofNat (0x80 + code / 0x40 % 0x40),
      UInt8.ofNat (0x80 + code % 0x40)]
  else
    [UInt8.ofNat (0xF0 + code / 0x40000),
      UInt8.ofNat (0x80 + code / 0x1000 % 0x40),
      UInt8.ofNat (0x80 + code / 0x40 % 0x40),
      UInt8.ofNat (0x80 + code % 0x40)]

def encode (text : List Char) : List UInt8 :=
  text.flatMap encodeChar

/-- What the decoder has read of an unfinished character: the bits so far,
the bounds of the next byte, and how many bytes follow after it. -/
structure Pending where
  bits : Nat
  low : Nat
  high : Nat
  after : Nat

inductive Start where
  | whole (c : Char)
  | partly (pending : Pending)
  | malformed

def start (byte : UInt8) : Start :=
  let code := byte.toNat
  if code < 0x80 then .whole (Char.ofNat code)
  else if code < 0xC2 then .malformed
  else if code < 0xE0 then
    .partly { bits := code - 0xC0, low := 0x80, high := 0xBF, after := 0 }
  else if code < 0xF0 then
    .partly
      { bits := code - 0xE0
        low := if code = 0xE0 then 0xA0 else 0x80
        high := if code = 0xED then 0x9F else 0xBF
        after := 1 }
  else if code < 0xF5 then
    .partly
      { bits := code - 0xF0
        low := if code = 0xF0 then 0x90 else 0x80
        high := if code = 0xF4 then 0x8F else 0xBF
        after := 2 }
  else .malformed

/-- Runs over the bytes; `none` stands for a malformed piece. -/
def pieces : Option Pending → List UInt8 → List (Option Char)
  | none, [] => []
  | some _, [] => [none]
  | none, byte :: rest =>
      match start byte with
      | .whole c => some c :: pieces none rest
      | .partly pending => pieces (some pending) rest
      | .malformed => none :: pieces none rest
  | some pending, byte :: rest =>
      if pending.low ≤ byte.toNat ∧ byte.toNat ≤ pending.high then
        let bits := pending.bits * 0x40 + (byte.toNat - 0x80)
        match pending.after with
        | 0 => some (Char.ofNat bits) :: pieces none rest
        | after + 1 =>
            pieces
              (some { bits := bits, low := 0x80, high := 0xBF, after := after })
              rest
      else
        none ::
          match start byte with
          | .whole c => some c :: pieces none rest
          | .partly next => pieces (some next) rest
          | .malformed => none :: pieces none rest

/-- Decodes, with a replacement character for each malformed piece. -/
def decodeLossy (bytes : List UInt8) : List Char :=
  (pieces none bytes).map fun piece => piece.getD '�'

def decode? (bytes : List UInt8) : Option (List Char) :=
  (pieces none bytes).mapM id

/-- A cut position: negative positions count from the end, and positions
outside are moved to the nearest end. -/
def cutPosition (length : Nat) (position : Int) : Nat :=
  let shifted := if position < 0 then position + length else position
  min shifted.toNat length

def slice (bytes : List UInt8) (first last : Int) : List UInt8 :=
  let from' := cutPosition bytes.length first
  let to' := cutPosition bytes.length last
  (bytes.drop from').take (to' - from')

end ContractAtlas.Text.Utf8
