set_option autoImplicit false

namespace TapeMachine

def twoTo (n : Nat) : Nat := Nat.pow 2 n

def tenTo (n : Nat) : Nat := Nat.pow 10 n

theorem two_to_add (m n : Nat) : twoTo (m + n) = twoTo m * twoTo n := Nat.pow_add 2 m n

theorem ten_to_succ (n : Nat) : tenTo (n + 1) = 10 * tenTo n := Nat.mul_comm (tenTo n) 10

theorem two_to_pos (n : Nat) : 0 < twoTo n := Nat.pow_pos (by decide)

theorem ten_to_pos (n : Nat) : 0 < tenTo n := Nat.pow_pos (by decide)

end TapeMachine
