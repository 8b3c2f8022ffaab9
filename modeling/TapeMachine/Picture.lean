import TapeMachine.Quantity

set_option autoImplicit false

namespace TapeMachine

def tapeStart : Text := "- - - -  | "

structure PictureSize where
  radius : Int
  column : Nat
  limit : Option Int
deriving DecidableEq

/-- The size that given values make; no limit stands for all transitions. -/
def PictureSize.ofGiven (radius limit : Json) : Except QuantityFault PictureSize := do
  let radius ← Quantity.radius radius
  let column ← Quantity.indent (tapeStart.length + radius * 4)
  return ⟨radius, column, ← Quantity.finish? limit⟩

end TapeMachine
