import TapeMachine.Text.CodePoint

set_option autoImplicit false

namespace TapeMachine.Base64

def alphabet : List CodePoint :=
  Text.ofString "ABCDEFGHIJKLMNOPQRSTUVWXYZabcdefghijklmnopqrstuvwxyz0123456789+/"

def padding : CodePoint := '='

def digit (n : Nat) : CodePoint := (alphabet[n % 64]?).getD padding

def digitValue? (c : CodePoint) : Option Nat :=
  let n := c.val
  if 0x41 ≤ n ∧ n ≤ 0x5A then some (n - 0x41)
  else if 0x61 ≤ n ∧ n ≤ 0x7A then some (n - 0x61 + 26)
  else if 0x30 ≤ n ∧ n ≤ 0x39 then some (n - 0x30 + 52)
  else if n = 0x2B then some 62
  else if n = 0x2F then some 63
  else none

def encode : Bytes → Text
  | [] => []
  | [a] =>
      let n := a.toNat * 16
      [digit (n / 64), digit n, padding, padding]
  | [a, b] =>
      let n := (a.toNat * 256 + b.toNat) * 4
      [digit (n / 4096), digit (n / 64), digit n, padding]
  | a :: b :: c :: rest =>
      let n := (a.toNat * 256 + b.toNat) * 256 + c.toNat
      digit (n / 262144) :: digit (n / 4096) :: digit (n / 64) :: digit n :: encode rest

inductive Fault where
  | leadingPadding
  | excessData
  | foreignData
  | discontinuousPadding
  | loneDigit (digits : Nat)
  | incompletePadding
deriving DecidableEq

namespace Fault

def message : Fault → String
  | .leadingPadding => "Leading padding not allowed"
  | .excessData => "Excess data after padding"
  | .foreignData => "Only base64 data is allowed"
  | .discontinuousPadding => "Discontinuous padding not allowed"
  | .loneDigit digits =>
      "Invalid base64-encoded string: number of data characters (" ++ toString digits ++
        ") cannot be 1 more than a multiple of 4"
  | .incompletePadding => "Incorrect padding"

end Fault

def bytesOf : List Nat → Bytes
  | a :: b :: c :: d :: rest =>
      UInt8.ofNat (a * 4 + b / 16) :: UInt8.ofNat (b * 16 + c / 4) :: UInt8.ofNat (c * 64 + d) :: bytesOf rest
  | [a, b, c] => [UInt8.ofNat (a * 4 + b / 16), UInt8.ofNat (b * 16 + c / 4)]
  | [a, b] => [UInt8.ofNat (a * 4 + b / 16)]
  | _ => []

def finish (digits : List Nat) : Except Fault Bytes :=
  match digits.length % 4 with
  | 0 => .ok (bytesOf digits)
  | 1 => .error (.loneDigit digits.length)
  | _ => .error .incompletePadding

def readFrom (reversed : List Nat) (count : Nat) (padded : Bool) (pads : Nat) : Text → Except Fault Bytes
  | [] => finish reversed.reverse
  | c :: t =>
      if c = padding then
        if 2 ≤ count % 4 then
          if 4 ≤ count % 4 + (pads + 1) then
            if t = [] then .ok (bytesOf reversed.reverse) else .error .excessData
          else readFrom reversed count true (pads + 1) t
        else readFrom reversed count true pads t
      else
        match digitValue? c with
        | none => .error .foreignData
        | some v => if padded then .error .discontinuousPadding else readFrom (v :: reversed) (count + 1) false 0 t

def decode : Text → Except Fault Bytes
  | [] => .ok []
  | c :: t => if c = padding then .error .leadingPadding else readFrom [] 0 false 0 (c :: t)

end TapeMachine.Base64
