import TapeMachine.Control.Configuration

set_option autoImplicit false

namespace TapeMachine

structure Definition where
  configuration : Configuration := {}
  charset : List Text := []
  blank : Option Text := none
  memory : Option Text := none
deriving DecidableEq

namespace Definition

def same (a b : Definition) : Bool :=
  a.configuration.same b.configuration && a.charset = b.charset && a.blank = b.blank && a.memory = b.memory

def declares (d : Definition) (c : CodePoint) : Bool := d.charset.contains [c]

def inputAlphabet (d : Definition) : List Text := d.charset.filter fun s => some s ≠ d.blank

end Definition

end TapeMachine
