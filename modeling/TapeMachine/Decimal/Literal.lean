import TapeMachine.Decimal.Binary64
import TapeMachine.Text.Blank

set_option autoImplicit false

namespace TapeMachine

def scriptZeros : List Nat := [
  0x30, 0x660, 0x6F0, 0x7C0, 0x966, 0x9E6, 0xA66, 0xAE6, 0xB66, 0xBE6, 0xC66, 0xCE6, 0xD66, 0xDE6, 0xE50, 0xED0,
  0xF20, 0x1040, 0x1090, 0x17E0, 0x1810, 0x1946, 0x19D0, 0x1A80, 0x1A90, 0x1B50, 0x1BB0, 0x1C40, 0x1C50, 0xA620,
  0xA8D0, 0xA900, 0xA9D0, 0xA9F0, 0xAA50, 0xABF0, 0xFF10, 0x104A0, 0x10D30, 0x11066, 0x110F0, 0x11136, 0x111D0,
  0x112F0, 0x11450, 0x114D0, 0x11650, 0x116C0, 0x11730, 0x118E0, 0x11950, 0x11C50, 0x11D50, 0x11DA0, 0x16A60,
  0x16AC0, 0x16B50, 0x1D7CE, 0x1D7D8, 0x1D7E2, 0x1D7EC, 0x1D7F6, 0x1E140, 0x1E2F0, 0x1E950, 0x1FBF0]

def CodePoint.decimalValue? (c : CodePoint) : Option Nat :=
  (scriptZeros.find? fun first => first ≤ c.val && c.val ≤ first + 9).map (c.val - ·)

def digitLimit : Nat := 4300

inductive LiteralFault where
  | malformed (literal : Text)
  | tooLong (digits : Nat)
deriving DecidableEq

namespace Literal

def isPadding (c : CodePoint) : Bool := c.isBlank && !(0x1C ≤ c.val && c.val ≤ 0x1F)

def readDigits (digitDue : Bool) : Text → Option (List Nat × Text)
  | [] => if digitDue then none else some ([], [])
  | c :: t =>
      match c.decimalValue? with
      | some v => (readDigits false t).map fun (vs, rest) => (v :: vs, rest)
      | none =>
          if digitDue then none
          else if c = '_' then readDigits true t
          else some ([], c :: t)

def splitSign : Text → Bool × Text
  | [] => (false, [])
  | c :: t => if c = '-' then (true, t) else if c = '+' then (false, t) else (false, c :: t)

def digitsValue (vs : List Nat) : Nat := vs.foldl (fun n v => 10 * n + v) 0

def readInteger (literal : Text) : Except LiteralFault Int :=
  let (negative, body) := splitSign (literal.dropWhile isPadding)
  match readDigits true body with
  | none => .error (.malformed literal)
  | some (vs, rest) =>
      if digitLimit < vs.length then .error (.tooLong vs.length)
      else if rest.all isPadding then .ok (if negative then -digitsValue vs else digitsValue vs)
      else .error (.malformed literal)

def readExponent? : Text → Option Int
  | [] => some 0
  | c :: t =>
      if c = 'e' ∨ c = 'E' then
        let (negative, body) := splitSign t
        match readDigits true body with
        | some (vs, []) => some (if negative then -digitsValue vs else digitsValue vs)
        | _ => none
      else none

def readTail? (negative : Bool) (whole : List Nat) (rest : Text) : Option Binary64 :=
  match rest with
  | [] => scaled whole [] rest
  | c :: t =>
      if c = '.' then
        match readDigits true t with
        | some (places, rest) => scaled whole places rest
        | none => scaled whole [] t
      else scaled whole [] rest
where
  scaled (whole places : List Nat) (rest : Text) : Option Binary64 :=
    if whole ++ places = [] then none
    else (readExponent? rest).map fun e => Binary64.ofDecimal negative
      (digitsValue (whole ++ places)) (e - places.length)

def lowered (t : Text) : Text := t.map fun c => if 0x80 ≤ c.val then c else c.folded

def trimPadding (t : Text) : Text := ((t.dropWhile isPadding).reverse.dropWhile isPadding).reverse

def readFraction? (literal : Text) : Option Binary64 :=
  let (negative, body) := splitSign (trimPadding literal)
  if lowered body = "nan" then some Binary64.notNumber
  else if [("inf" : Text), "infinity"].contains (lowered body) then some (Binary64.infinity negative)
  else
    match readDigits true body with
    | some (whole, rest) => readTail? negative whole rest
    | none => readTail? negative [] body

end Literal

end TapeMachine
