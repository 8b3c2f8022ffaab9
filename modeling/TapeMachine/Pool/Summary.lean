import TapeMachine.Pool.Entry
import TapeMachine.Quantity

set_option autoImplicit false

namespace TapeMachine

inductive ArrayFlaw where
  | badValue
  | badType
  | overflow
deriving DecidableEq

structure ArrayFault where
  flaw : ArrayFlaw
  message : Text
deriving DecidableEq

/-- The library that counts steps. It makes an array of whole numbers of what it is given, and knows
the mean and the median of one. -/
class Arrays where
  whole : List Json → Except ArrayFault (List Int)
  mean : List Int → Binary64
  median : List Int → Binary64

/-- What the program can rely on: numbers of a machine word are taken as they are, and a larger one is refused. -/
structure Arrays.Lawful [Arrays] : Prop where
  sized : ∀ is : List Int, (∀ i ∈ is, Quantity.isSized i = true) → whole (is.map .int) = .ok is
  large : ∀ is : List Int, (∃ i ∈ is, Quantity.isSized i = false) →
    ∃ fault, whole (is.map .int) = .error fault ∧ fault.flaw = .overflow

inductive SummaryFault where
  | missing (key : Text)
  | noFields (value : Json)
  | array (fault : ArrayFault)
deriving DecidableEq

structure Tally where
  status : Except SummaryFault Json
  steps : Except SummaryFault Json

namespace Tally

def field (key : Text) : Json → Except SummaryFault Json
  | .object fields => match Fields.find? key fields with
    | some value => .ok value
    | none => .error (.missing key)
  | value => .error (.noFields value)

def ofGiven (result : Json) : Tally := ⟨field "status" result, field "steps_taken" result⟩

end Tally

structure Summary where
  runs : Nat
  accepted : Nat
  rejected : Nat
  unhalted : Nat
  failed : Nat
  mean : Binary64
  median : Binary64
  largest : Int
deriving DecidableEq

def failedStatus : Text := "FAILED"

namespace Summary

def ofTallies [Arrays] (tallies : List Tally) : Except SummaryFault Summary := do
  let statuses ← tallies.mapM Tally.status
  let finished := (tallies.zip statuses).filter fun r => r.2 ≠ .text failedStatus
  let counts ← (Arrays.whole (← finished.mapM fun r => r.1.steps)).mapError .array
  let count (status : Text) : Nat := (statuses.filter fun s => s = .text status).length
  let empty := counts = []
  return {
    runs := tallies.length
    accepted := count Status.accepted.name
    rejected := count Status.rejected.name
    unhalted := count Status.active.name
    failed := count failedStatus
    mean := if empty then Binary64.zero false else Arrays.mean counts
    median := if empty then Binary64.zero false else Arrays.median counts
    largest := counts.foldl max (counts.headD 0) }

def toFields (s : Summary) : Fields :=
  [("runs", .int s.runs), ("accepted", .int s.accepted), ("rejected", .int s.rejected), ("unhalted", .int s.unhalted),
    ("failed", .int s.failed), ("mean_steps", .float s.mean), ("median_steps", .float s.median),
    ("max_steps", .int s.largest)]

end Summary

end TapeMachine
