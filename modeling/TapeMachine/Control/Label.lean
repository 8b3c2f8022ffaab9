import TapeMachine.Json.Entries

set_option autoImplicit false

namespace TapeMachine

abbrev Label := Json

namespace Label

def ofId (id : Nat) : Label := .int id

def id? (label : Label) : Option Int := label.asInt?

def names (label : Label) (id : Nat) : Bool := label.id? = some (id : Int)

def same (a b : Label) : Bool := a.sameKey b

@[simp] theorem names_of_id (a b : Nat) : names (ofId a) b = true ↔ a = b := by
  simp only [names, ofId, id?, Json.asInt?, Option.some.injEq, Int.ofNat_inj, decide_eq_true_eq]

end Label

end TapeMachine
