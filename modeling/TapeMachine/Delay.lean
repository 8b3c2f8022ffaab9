import TapeMachine.Json.Basic

set_option autoImplicit false

namespace TapeMachine

inductive DelayFault where
  | notNumber
  | tooLong
  | negative
deriving DecidableEq

namespace DelayFault

def message : DelayFault → Text
  | .notNumber => "Invalid value NaN (not a number)"
  | .tooLong => "timestamp too large to convert to C _PyTime_t"
  | .negative => "sleep length must be non-negative"

end DelayFault

namespace Delay

def nanosecondsPerSecond : Nat := tenTo 9

def limit : Int := twoTo 63

def checkFraction (seconds : Binary64) : Except DelayFault Unit :=
  match seconds.view with
  | .nan => .error .notNumber
  | .infinite _ => .error .tooLong
  | .finite s m e =>
      let nanoseconds := Binary64.ofDyadic (Binary64.signedMantissa s (m * nanosecondsPerSecond)) e
      if nanoseconds.isBelow (-limit) || !nanoseconds.isBelow limit then .error .tooLong
      else if nanoseconds.isNegative then .error .negative
      else .ok ()

def checkWhole (seconds : Int) : Except DelayFault Unit :=
  let nanoseconds := seconds * nanosecondsPerSecond
  if nanoseconds < -limit ∨ limit ≤ nanoseconds then .error .tooLong
  else if nanoseconds < 0 then .error .negative
  else .ok ()

def check (given : Json) : Except DelayFault Unit :=
  if !given.truth then .ok ()
  else
    match given with
    | .int seconds => checkWhole seconds
    | .float seconds => checkFraction seconds
    | _ => .ok ()

end Delay

end TapeMachine
