import TapeMachine.Json.Equality

set_option autoImplicit false

namespace TapeMachine

inductive QuantityFault where
  | notWhole (value : Json)
  | notIndex (value : Json)
  | notEnd
  | notCount
  | notOrdered (left right : Json)
  | notAdded (left right : Json)
  | notSubtracted (left right : Json)
  | zeroStep
  | negativeCount
  | hugeCount
  | negativeLength
  | hugeLength
  | noRoom
  | hugeIndent
  | noWorkers
deriving DecidableEq

namespace QuantityFault

def operands (left right : Json) : Text := "'" ++ left.typeName ++ "' and '" ++ right.typeName ++ "'"

def noSum (left right : Json) : Text :=
  let joined (name : Text) : Text :=
    "can only concatenate " ++ name ++ " (not \"" ++ right.typeName ++ "\") to " ++ name
  match left with
  | .text _ => joined left.typeName
  | .list _ => joined left.typeName
  | _ => "unsupported operand type(s) for +: " ++ operands left right

def message : QuantityFault → Text
  | .notWhole value => "'" ++ value.typeName ++ "' object cannot be interpreted as an integer"
  | .notIndex value => "list indices must be integers or slices, not " ++ value.typeName
  | .notEnd => "slice indices must be integers or None or have an __index__ method"
  | .notCount => "an integer is required"
  | .notOrdered left right => "'<' not supported between instances of " ++ operands left right
  | .notAdded left right => noSum left right
  | .notSubtracted left right => "unsupported operand type(s) for -: " ++ operands left right
  | .zeroStep => "range() arg 3 must not be zero"
  | .negativeCount => "maxlen must be non-negative"
  | .hugeCount => "Python int too large to convert to C ssize_t"
  | .negativeLength => "repeat argument cannot be negative"
  | .hugeLength => "repeat argument too large"
  | .noRoom => ""
  | .hugeIndent => "cannot fit 'int' into an index-sized integer"
  | .noWorkers => "Number of processes must be at least 1"

end QuantityFault

/-- The memory at hand, as far as listing words needs it: whether there is room for the places of a
word of some length. -/
class Memory where
  holds : Nat → Bool

namespace Quantity

def ofTruth (b : Bool) : Int := if b then 1 else 0

def isBelow (given : Json) (i : Int) : Except QuantityFault Bool :=
  match given with
  | .int j => .ok (j < i)
  | .bool b => .ok (ofTruth b < i)
  | .float d => .ok (d.isBelow i)
  | value => .error (.notOrdered value (.int i))

def isAtLeast (given : Json) (i : Int) : Except QuantityFault Bool := do
  let below ← isBelow given i
  return !below && !given.isNotNumber

def whole : Json → Except QuantityFault Int
  | .int i => .ok i
  | .bool b => .ok (ofTruth b)
  | value => .error (.notWhole value)

def place? (size : Nat) (given : Json) : Except QuantityFault (Option Nat) := do
  if ← isBelow given 0 then return none
  else if ← isAtLeast given size then return none
  else
    match whole given with
    | .ok i => return some i.toNat
    | .error _ => throw (.notIndex given)

def endless : Nat := twoTo 64

def stepBound : Json → Except QuantityFault Nat
  | .int i => .ok i.toNat
  | .bool b => .ok (ofTruth b).toNat
  | .float d => match d.view with
    | .nan => .ok 0
    | .infinite s => .ok (if s then 0 else endless)
    | .finite _ _ _ => .ok (d.ceil?.getD 0).toNat
  | value => .error (.notOrdered (.int 0) value)

def radius : Json → Except QuantityFault Int
  | .int i => .ok i
  | .bool b => .ok (ofTruth b)
  | .float d => .error (.notWhole (.float d))
  | value => .error (.notSubtracted (.int 0) value)

def stride (given : Json) : Except QuantityFault Nat := do
  let size ← whole given
  if size = 0 then throw .zeroStep
  return size.toNat

/-- The first and the last of whole numbers in a row; the one after the last is formed before either is looked at. -/
def range (low high : Json) : Except QuantityFault (Int × Int) := do
  match high with
  | .int _ => pure ()
  | .bool _ => pure ()
  | .float _ => pure ()
  | value => throw (.notAdded value (.int 1))
  return (← whole low, ← whole high)

def finish? : Json → Except QuantityFault (Option Int)
  | .null => .ok none
  | given => match whole given with
    | .ok i => .ok (some i)
    | .error _ => .error .notEnd

def isSized (i : Int) : Bool := -(twoTo 63 : Int) ≤ i && i < twoTo 63

def count? : Json → Except QuantityFault (Option Nat)
  | .null => .ok none
  | given => match whole given with
    | .error _ => .error .notCount
    | .ok i =>
        if !isSized i then .error .hugeCount
        else if i < 0 then .error .negativeCount
        else .ok (some i.toNat)

def wordLength [Memory] (i : Int) : Except QuantityFault Nat :=
  if !isSized i then .error .hugeCount
  else if i < 0 then .error .negativeLength
  else if twoTo 60 ≤ i then .error .hugeLength
  else if Memory.holds i.toNat then .ok i.toNat
  else .error .noRoom

def indent (i : Int) : Except QuantityFault Nat := if isSized i then .ok i.toNat else .error .hugeIndent

/-- At least one worker is needed; nothing stands for as many as there can be. -/
def checkWorkers : Json → Except QuantityFault Unit
  | .null => .ok ()
  | given => do
      if ← isBelow given 1 then throw .noWorkers
      let _ ← whole given

end Quantity

end TapeMachine
