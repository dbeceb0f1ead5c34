/-!
# Base64

Four letters stand for three bytes. What is no letter is passed over; padding ends the data as
soon as it fills up a group, and data that end within a group without it are refused.
-/
namespace Mson.Text.Base64

def letterValue? (c : Char) : Option Nat :=
  if 'A' ≤ c && c ≤ 'Z' then some (c.toNat - 'A'.toNat)
  else if 'a' ≤ c && c ≤ 'z' then some (c.toNat - 'a'.toNat + 26)
  else if '0' ≤ c && c ≤ '9' then some (c.toNat - '0'.toNat + 52)
  else if c = '+' then some 62
  else if c = '/' then some 63
  else none

/-- The byte that a letter completes at a place in its group: `carry` holds the bits left over
from the letters before it. -/
def byteAt (place carry value : Nat) : List UInt8 :=
  match place with
  | 0 => []
  | 1 => [UInt8.ofNat (carry * 4 + value / 16)]
  | 2 => [UInt8.ofNat (carry * 16 + value / 4)]
  | _ => [UInt8.ofNat (carry * 64 + value)]

/-- The bits of a letter that belong to the next byte. -/
def carryAfter (place value : Nat) : Nat :=
  match place with
  | 0 => value
  | 1 => value % 16
  | 2 => value % 4
  | _ => 0

/-- Decodes the rest of a text at a place in a group, after `pads` padding marks in a row. -/
def decodeFrom (place carry pads : Nat) : List Char → Option (List UInt8)
  | [] => if place = 0 then some [] else none
  | c :: rest =>
      match letterValue? c with
      | some value =>
          (decodeFrom ((place + 1) % 4) (carryAfter place value) 0 rest).map
            (byteAt place carry value ++ ·)
      | none =>
          if c = '=' ∧ 2 ≤ place then
            if 4 ≤ place + pads + 1 then some [] else decodeFrom place carry (pads + 1) rest
          else decodeFrom place carry pads rest

def decode? (text : List Char) : Option (List UInt8) := decodeFrom 0 0 0 text

end Mson.Text.Base64
