/-!
# Strict UTF-8

Decodes bytes of UTF-8, shortest forms only and without surrogates. The first fault ends the
decoding: it names the bytes that cannot be read, from the first byte of the character up to the
byte that breaks it off.
-/
namespace Mson.Text.Utf8

inductive FaultReason where
  | invalidStart
  | invalidContinuation
  | unexpectedEnd
  deriving DecidableEq, Repr

/-- The bytes from `start` up to but without `stop` cannot be decoded; `first` is the first of
them. -/
structure Fault where
  reason : FaultReason
  start : Nat
  stop : Nat
  first : UInt8
  deriving DecidableEq, Repr

/-- What the first byte of a character promises: how many bytes follow, in which range the next one
lies, and the bits it contributes. -/
structure Lead where
  following : Nat
  low : UInt8
  high : UInt8
  bits : Nat
  deriving DecidableEq, Repr

def lead? (byte : UInt8) : Option Lead :=
  let n := byte.toNat
  if n < 0x80 then some ⟨0, 0x80, 0xBF, n⟩
  else if n < 0xC2 then none
  else if n < 0xE0 then some ⟨1, 0x80, 0xBF, n - 0xC0⟩
  else if n = 0xE0 then some ⟨2, 0xA0, 0xBF, 0⟩
  else if n = 0xED then some ⟨2, 0x80, 0x9F, 0xD⟩
  else if n < 0xF0 then some ⟨2, 0x80, 0xBF, n - 0xE0⟩
  else if n = 0xF0 then some ⟨3, 0x90, 0xBF, 0⟩
  else if n < 0xF4 then some ⟨3, 0x80, 0xBF, n - 0xF0⟩
  else if n = 0xF4 then some ⟨3, 0x80, 0x8F, 4⟩
  else none

/-- A character that has begun: where, with which byte, how many bytes are missing, in which range
the next one lies, and the value so far. -/
structure Open where
  start : Nat
  first : UInt8
  missing : Nat
  low : UInt8
  high : UInt8
  value : Nat

/-- Decodes the rest of the bytes; `position` is the place of the next one. -/
def decodeFrom (position : Nat) (current : Option Open) (built : List Char) :
    List UInt8 → Except Fault (List Char)
  | [] =>
      match current with
      | none => .ok built.reverse
      | some pending => .error ⟨.unexpectedEnd, pending.start, position, pending.first⟩
  | byte :: bytes =>
      match current with
      | none =>
          match lead? byte with
          | none => .error ⟨.invalidStart, position, position + 1, byte⟩
          | some lead =>
              if lead.following = 0 then
                decodeFrom (position + 1) none (Char.ofNat lead.bits :: built) bytes
              else
                decodeFrom (position + 1)
                  (some ⟨position, byte, lead.following, lead.low, lead.high, lead.bits⟩) built
                  bytes
      | some pending =>
          if pending.low ≤ byte && byte ≤ pending.high then
            let value := pending.value * 64 + (byte.toNat - 0x80)
            if pending.missing = 1 then
              decodeFrom (position + 1) none (Char.ofNat value :: built) bytes
            else
              decodeFrom (position + 1)
                (some { pending with
                  missing := pending.missing - 1, low := 0x80, high := 0xBF, value }) built bytes
          else .error ⟨.invalidContinuation, pending.start, position, pending.first⟩

def decode (bytes : List UInt8) : Except Fault (List Char) := decodeFrom 0 none [] bytes

def FaultReason.text : FaultReason → String
  | .invalidStart => "invalid start byte"
  | .invalidContinuation => "invalid continuation byte"
  | .unexpectedEnd => "unexpected end of data"

def hexByte (byte : UInt8) : String :=
  let digit (n : Nat) : Char :=
    if n < 10 then Char.ofNat ('0'.toNat + n) else Char.ofNat ('a'.toNat + n - 10)
  String.ofList [digit (byte.toNat / 16), digit (byte.toNat % 16)]

def Fault.message (fault : Fault) : String :=
  let place :=
    if fault.stop = fault.start + 1 then
      s!"byte 0x{hexByte fault.first} in position {fault.start}"
    else s!"bytes in position {fault.start}-{fault.stop - 1}"
  s!"'utf-8' codec can't decode {place}: {fault.reason.text}"

end Mson.Text.Utf8
