import TapeMachine.Decimal.Numeral

set_option autoImplicit false

namespace TapeMachine.Utf8

def encodePoint (c : CodePoint) : Option Bytes :=
  let n := c.val
  if n < 0x80 then some [UInt8.ofNat n]
  else if n < 0x800 then some [UInt8.ofNat (0xC0 + n / 0x40), UInt8.ofNat (0x80 + n % 0x40)]
  else if c.isSurrogate then none
  else if n < 0x10000 then
    some [UInt8.ofNat (0xE0 + n / 0x1000), UInt8.ofNat (0x80 + n / 0x40 % 0x40), UInt8.ofNat (0x80 + n % 0x40)]
  else
    some [UInt8.ofNat (0xF0 + n / 0x40000), UInt8.ofNat (0x80 + n / 0x1000 % 0x40),
      UInt8.ofNat (0x80 + n / 0x40 % 0x40), UInt8.ofNat (0x80 + n % 0x40)]

def encode : Text → Option Bytes
  | [] => some []
  | c :: t => match encodePoint c, encode t with
    | some bytes, some rest => some (bytes ++ rest)
    | _, _ => none

def continuation? (b : UInt8) : Option Nat :=
  if 0x80 ≤ b.toNat ∧ b.toNat < 0xC0 then some (b.toNat - 0x80) else none

def scalar? (least n : Nat) : Option CodePoint :=
  match CodePoint.ofNat? n with
  | some c => if least ≤ n ∧ c.isSurrogate = false then some c else none
  | none => none

def decodePoint : Bytes → Option (CodePoint × Nat)
  | [] => none
  | b :: rest =>
      let lead := b.toNat
      if lead < 0x80 then (CodePoint.ofNat? lead).map (·, 1)
      else if lead < 0xC0 then none
      else if lead < 0xE0 then
        match rest.take 1 |>.mapM continuation? with
        | some [x] => (scalar? 0x80 ((lead - 0xC0) * 0x40 + x)).map (·, 2)
        | _ => none
      else if lead < 0xF0 then
        match rest.take 2 |>.mapM continuation? with
        | some [x, y] => (scalar? 0x800 ((lead - 0xE0) * 0x1000 + x * 0x40 + y)).map (·, 3)
        | _ => none
      else
        match rest.take 3 |>.mapM continuation? with
        | some [x, y, z] => (scalar? 0x10000 ((lead - 0xF0) * 0x40000 + x * 0x1000 + y * 0x40 + z)).map (·, 4)
        | _ => none

def decodeWithin : Nat → Bytes → Option Text
  | _, [] => some []
  | 0, _ :: _ => none
  | fuel + 1, bytes => match decodePoint bytes with
    | some (c, size) => (decodeWithin fuel (bytes.drop size)).map (c :: ·)
    | none => none

def decode (bytes : Bytes) : Option Text := decodeWithin bytes.length bytes

inductive FlawKind where
  | start
  | continuation
  | ending
deriving DecidableEq

structure Flaw where
  kind : FlawKind
  offset : Nat
  bytes : Bytes
deriving DecidableEq

def secondRange (lead : Nat) : Nat × Nat :=
  (if lead = 0xE0 then 0xA0 else if lead = 0xF0 then 0x90 else 0x80,
    if lead = 0xED then 0x9F else if lead = 0xF4 then 0x8F else 0xBF)

def announced (lead : Nat) : Nat :=
  if 0xC2 ≤ lead ∧ lead < 0xE0 then 2 else if 0xE0 ≤ lead ∧ lead < 0xF0 then 3
  else if 0xF0 ≤ lead ∧ lead < 0xF5 then 4 else 0

def flawAfter (low high : Nat) (size : Nat) : Nat → Bytes → FlawKind × Nat
  | 0, _ => (.ending, size)
  | _ + 1, [] => (.ending, size)
  | due + 1, b :: rest =>
      if low ≤ b.toNat ∧ b.toNat ≤ high then flawAfter 0x80 0xBF (size + 1) due rest else (.continuation, size)

def flawAt (offset : Nat) : Bytes → Flaw
  | [] => ⟨.ending, offset, []⟩
  | b :: rest =>
      match announced b.toNat with
      | 0 => ⟨.start, offset, [b]⟩
      | n + 1 =>
          let (low, high) := secondRange b.toNat
          let (kind, size) := flawAfter low high 1 n rest
          ⟨kind, offset, (b :: rest).take size⟩

def flawWithin (offset : Nat) : Nat → Bytes → Flaw
  | 0, bytes => flawAt offset bytes
  | fuel + 1, bytes => match decodePoint bytes with
    | some (_, size) => flawWithin (offset + size) fuel (bytes.drop size)
    | none => flawAt offset bytes

def flaw (bytes : Bytes) : Flaw := flawWithin 0 bytes.length bytes

def Flaw.withinLines (flaw : Flaw) : Flaw := if flaw.kind = .ending then { flaw with offset := 0 } else flaw

def FlawKind.message : FlawKind → Text
  | .start => "invalid start byte"
  | .continuation => "invalid continuation byte"
  | .ending => "unexpected end of data"

def Flaw.message (flaw : Flaw) : Text :=
  let place : Text := match flaw.bytes with
    | [b] => "byte 0x" ++ hexFixed 2 b.toNat ++ " in position " ++ numeral flaw.offset
    | bytes => "bytes in position " ++ numeral flaw.offset ++ "-" ++ numeral (flaw.offset + bytes.length - 1)
  "'utf-8' codec can't decode " ++ place ++ ": " ++ flaw.kind.message

end TapeMachine.Utf8
