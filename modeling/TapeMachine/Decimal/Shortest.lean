import TapeMachine.Decimal.Binary64

set_option autoImplicit false

namespace TapeMachine.Binary64

def compareDecimal (digits : Nat) (k : Int) (x : Nat) (e : Int) : Ordering :=
  compare (digits * tenTo k.toNat * twoTo (-e).toNat) (x * twoTo e.toNat * tenTo (-k).toNat)

def leadingZeros (m : Nat) (e : Int) : Nat → Nat → Nat
  | 0, places => places
  | fuel + 1, places =>
      if compareDecimal 1 (-(places + 1)) m e == .gt then leadingZeros m e fuel (places + 1) else places

def decimalSize (m : Nat) (e : Int) : Int :=
  if compareDecimal 1 0 m e == .gt then -(leadingZeros m e 400 0 : Int)
  else (numeral (m * twoTo e.toNat / twoTo (-e).toNat)).length

def readsBack (m : Nat) (e : Int) (digits : Nat) (k : Int) : Bool :=
  let below := if m = hiddenBit ∧ -1074 < e then 4 * m - 1 else 4 * m - 2
  let low := compareDecimal digits k below (e - 2)
  let high := compareDecimal digits k (4 * m + 2) (e - 2)
  if m % 2 = 0 then low != .lt && high != .gt else low == .gt && high == .lt

def onGrid? (m : Nat) (e : Int) (k : Int) : Option Nat :=
  let floor := m * twoTo e.toNat * tenTo (-k).toNat / (twoTo (-e).toNat * tenTo k.toNat)
  match readsBack m e floor k, readsBack m e (floor + 1) k with
  | false, false => none
  | true, false => some floor
  | false, true => some (floor + 1)
  | true, true =>
      match compareDecimal (2 * floor + 1) k (2 * m) e with
      | .gt => some floor
      | .lt => some (floor + 1)
      | .eq => some (floor + floor % 2)

def shortestFrom (m : Nat) (e : Int) (size : Int) : Nat → Nat → Nat × Int
  | 0, _ => (0, 0)
  | fuel + 1, count =>
      match onGrid? m e (size - count) with
      | some digits => (digits, size - count)
      | none => shortestFrom m e size fuel (count + 1)

def dropTrailingZeros : Nat → Nat → Int → Nat × Int
  | 0, digits, k => (digits, k)
  | fuel + 1, digits, k =>
      if digits % 10 = 0 ∧ digits ≠ 0 then dropTrailingZeros fuel (digits / 10) (k + 1) else (digits, k)

def shortest (m : Nat) (e : Int) : Nat × Int :=
  let (digits, k) := shortestFrom m e (decimalSize m e) 17 1
  dropTrailingZeros 20 digits k

def zeros (n : Nat) : Text := List.replicate n (CodePoint.ofChar '0')

def layout (digits : Nat) (k : Int) : Text :=
  let ds := numeral digits
  let point : Int := k + ds.length
  if -4 < point ∧ point ≤ 16 then
    if point ≤ 0 then "0." ++ zeros (-point).toNat ++ ds
    else if (ds.length : Int) ≤ point then ds ++ zeros (point - ds.length).toNat ++ ".0"
    else ds.take point.toNat ++ "." ++ ds.drop point.toNat
  else
    let e := point - 1
    let places := numeral e.natAbs
    let mark : Text := if e < 0 then "e-" else "e+"
    let fraction : Text := if ds.length = 1 then [] else "." ++ ds.drop 1
    ds.take 1 ++ fraction ++ mark ++ zeros (2 - places.length) ++ places

def minus (negative : Bool) : Text := if negative then "-" else []

def finiteText? (d : Binary64) : Option Text :=
  match d.view with
  | .finite s m e =>
      if m = 0 then some (minus s ++ "0.0")
      else
        let (digits, k) := shortest m e
        some (minus s ++ layout digits k)
  | _ => none

def text (d : Binary64) : Text :=
  match d.view with
  | .nan => "nan"
  | .infinite s => minus s ++ "inf"
  | .finite _ _ _ => d.finiteText?.getD []

def twoPlaces (d : Binary64) : Text :=
  match d.view with
  | .nan => "nan"
  | .infinite s => minus s ++ "inf"
  | .finite s m e =>
      let hundredths := roundDiv (m * 100 * twoTo e.toNat) (twoTo (-e).toNat)
      minus s ++ numeral (hundredths / 100) ++ "." ++ [decimalDigit (hundredths / 10), decimalDigit hundredths]

def groupedText (d : Binary64) : Text :=
  let t := d.text
  let sign := t.takeWhile (· = CodePoint.ofChar '-')
  let rest := t.dropWhile (· = CodePoint.ofChar '-')
  sign ++ groupThousands (rest.takeWhile CodePoint.isDigit) ++ rest.dropWhile CodePoint.isDigit

end TapeMachine.Binary64
