set_option autoImplicit false

namespace TapeMachine

abbrev Bytes := List UInt8

structure CodePoint where
  val : Nat
  isLt : val < 0x110000
deriving DecidableEq

abbrev Text := List CodePoint

namespace CodePoint

def ofNat? (n : Nat) : Option CodePoint :=
  if h : n < 0x110000 then some ⟨n, h⟩ else none

theorem char_below (c : Char) : c.toNat < 0x110000 := by
  have valid := c.valid
  simp only [Char.toNat, UInt32.isValidChar, Nat.isValidChar] at *
  omega

def ofChar (c : Char) : CodePoint := ⟨c.toNat, char_below c⟩

instance : Coe Char CodePoint := ⟨ofChar⟩

@[simp] theorem of_nat_val (c : CodePoint) : ofNat? c.val = some c := by
  simp [ofNat?, c.isLt]

theorem of_nat_eq_some_iff {n : Nat} {c : CodePoint} : ofNat? n = some c ↔ c.val = n := by
  unfold ofNat?
  split
  · constructor
    · rintro ⟨⟩; rfl
    · rintro rfl; rfl
  · rename_i high
    constructor
    · simp
    · intro same; have := c.isLt; omega

def isSurrogate (c : CodePoint) : Bool := 0xD800 ≤ c.val && c.val ≤ 0xDFFF

def isByteSurrogate (c : CodePoint) : Bool := 0xDC80 ≤ c.val && c.val ≤ 0xDCFF

def isDigit (c : CodePoint) : Bool := 0x30 ≤ c.val && c.val ≤ 0x39

def digitValue (c : CodePoint) : Nat := c.val - 0x30

def folded (c : CodePoint) : CodePoint :=
  if h : 0x41 ≤ c.val ∧ c.val ≤ 0x5A then ⟨c.val + 0x20, by omega⟩
  else if c.val = 0x17F then 's'
  else if c.val = 0x212A then 'k'
  else c

end CodePoint

namespace Text

def ofString (s : String) : Text := s.toList.map CodePoint.ofChar

instance : Coe String Text := ⟨ofString⟩

def before : Text → Text → Bool
  | _, [] => false
  | [], _ :: _ => true
  | a :: s, b :: t => if a.val < b.val then true else if b.val < a.val then false else before s t

def place (t : Text) : List Text → List Text
  | [] => [t]
  | u :: us => if before t u then t :: u :: us else u :: place t us

def sorted (ts : List Text) : List Text := ts.foldr place []

def join (separator : Text) : List Text → Text
  | [] => []
  | [t] => t
  | t :: u :: ts => t ++ separator ++ join separator (u :: ts)

def startsWith : Text → Text → Bool
  | _, [] => true
  | [], _ :: _ => false
  | a :: s, b :: t => a = b && startsWith s t

def endsWith (s t : Text) : Bool := startsWith s.reverse t.reverse

def padLeft (width : Nat) (t : Text) : Text := List.replicate (width - t.length) (CodePoint.ofChar ' ') ++ t

end Text

end TapeMachine
