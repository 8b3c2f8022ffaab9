import TapeMachine.Decimal.Numeral
import TapeMachine.Decimal.Power

set_option autoImplicit false

namespace TapeMachine

structure Binary64 where
  bits : UInt64
deriving DecidableEq

namespace Binary64

inductive View where
  | nan
  | infinite (negative : Bool)
  | finite (negative : Bool) (mantissa : Nat) (exponent : Int)
deriving DecidableEq

def signBit : Nat := twoTo 63

def hiddenBit : Nat := twoTo 52

def view (d : Binary64) : View :=
  let n := d.bits.toNat
  let negative := decide (signBit ≤ n)
  let exponent := n / hiddenBit % 2048
  let fraction := n % hiddenBit
  if exponent = 2047 then
    if fraction = 0 then .infinite negative else .nan
  else if exponent = 0 then .finite negative fraction (-1074)
  else .finite negative (fraction + hiddenBit) (exponent - 1075)

def ofParts (negative : Bool) (rest : Nat) : Binary64 :=
  ⟨UInt64.ofNat (rest + if negative then signBit else 0)⟩

def infinity (negative : Bool) : Binary64 := ofParts negative (2047 * hiddenBit)

def notNumber : Binary64 := ofParts false (2047 * hiddenBit + hiddenBit / 2)

def zero (negative : Bool) : Binary64 := ofParts negative 0

def roundDiv (num den : Nat) : Nat :=
  let quotient := num / den
  let rest := num % den
  if 2 * rest < den then quotient
  else if den < 2 * rest then quotient + 1
  else quotient + quotient % 2

def scaleDown (num den : Nat) (e : Int) : Nat × Nat :=
  if 0 ≤ e then (num, den * twoTo e.toNat) else (num * twoTo (-e).toNat, den)

def ofRatio (negative : Bool) (num den : Nat) : Binary64 :=
  if num = 0 then zero negative
  else
    let guess : Int := max ((num.log2 : Int) - den.log2 - 52) (-1074)
    let (n, d) := scaleDown num den guess
    let e := if n / d < hiddenBit ∧ -1074 < guess then guess - 1 else guess
    let (n, d) := scaleDown num den e
    let mantissa := roundDiv n d
    let (mantissa, e) := if mantissa = 2 * hiddenBit then (hiddenBit, e + 1) else (mantissa, e)
    if 971 < e then infinity negative
    else if mantissa < hiddenBit then ofParts negative mantissa
    else ofParts negative ((e + 1075).toNat * hiddenBit + (mantissa - hiddenBit))

def ofDyadic (i : Int) (e : Int) : Binary64 :=
  if 0 ≤ e then ofRatio (i < 0) (i.natAbs * twoTo e.toNat) 1 else ofRatio (i < 0) i.natAbs (twoTo (-e).toNat)

def ofInt (i : Int) : Binary64 := ofDyadic i 0

def ofDecimal (negative : Bool) (digits : Nat) (e : Int) : Binary64 :=
  let size : Int := (numeral digits).length
  if digits = 0 then zero negative
  else if 400 < size + e then infinity negative
  else if size + e < -400 then zero negative
  else if 0 ≤ e then ofRatio negative (digits * tenTo e.toNat) 1
  else ofRatio negative digits (tenTo (-e).toNat)

def signedMantissa (negative : Bool) (mantissa : Nat) : Int := if negative then -mantissa else mantissa

def add (a b : Binary64) : Binary64 :=
  match a.view, b.view with
  | .nan, _ => notNumber
  | _, .nan => notNumber
  | .infinite s, .infinite t => if s = t then a else notNumber
  | .infinite _, .finite _ _ _ => a
  | .finite _ _ _, .infinite _ => b
  | .finite s m e, .finite t n f =>
      if m = 0 ∧ n = 0 then zero (s && t)
      else
        let low := min e f
        let left := signedMantissa s m * twoTo (e - low).toNat
        let right := signedMantissa t n * twoTo (f - low).toNat
        ofDyadic (left + right) low

def divNat (a : Binary64) (n : Nat) : Binary64 :=
  match a.view with
  | .finite s m e =>
      if 0 ≤ e then ofRatio s (m * twoTo e.toNat) n else ofRatio s m (n * twoTo (-e).toNat)
  | _ => a

def isNegative (a : Binary64) : Bool :=
  match a.view with
  | .nan => false
  | .infinite s => s
  | .finite s m _ => s && m ≠ 0

def toInt? (a : Binary64) : Option Int :=
  match a.view with
  | .finite s m e =>
      if 0 ≤ e then some (signedMantissa s (m * twoTo e.toNat))
      else if m % twoTo (-e).toNat = 0 then some (signedMantissa s (m / twoTo (-e).toNat))
      else none
  | _ => none

def truncate? (a : Binary64) : Option Int :=
  match a.view with
  | .finite s m e =>
      if 0 ≤ e then some (signedMantissa s (m * twoTo e.toNat)) else some (signedMantissa s (m / twoTo (-e).toNat))
  | _ => none

def isBelow (a : Binary64) (i : Int) : Bool :=
  match a.view with
  | .nan => false
  | .infinite s => s
  | .finite s m e =>
      if 0 ≤ e then signedMantissa s (m * twoTo e.toNat) < i else signedMantissa s m < i * twoTo (-e).toNat

def ceil? (a : Binary64) : Option Int :=
  match a.view with
  | .finite s m e =>
      if 0 ≤ e then some (signedMantissa s (m * twoTo e.toNat))
      else
        let unit := twoTo (-e).toNat
        some (if s then -((m / unit : Nat) : Int) else ((m + unit - 1) / unit : Nat))
  | _ => none

end Binary64

end TapeMachine
