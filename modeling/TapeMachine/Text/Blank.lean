import TapeMachine.Text.CodePoint

set_option autoImplicit false

namespace TapeMachine

namespace CodePoint

def isBlank (c : CodePoint) : Bool :=
  let n := c.val
  (9 ≤ n && n ≤ 13) || (0x1C ≤ n && n ≤ 0x20) || n == 0x85 || n == 0xA0 || n == 0x1680 ||
    (0x2000 ≤ n && n ≤ 0x200A) || n == 0x2028 || n == 0x2029 || n == 0x202F || n == 0x205F || n == 0x3000

end CodePoint

namespace Text

def dropBlanks (t : Text) : Text := t.dropWhile CodePoint.isBlank

def dropBlanksEnd (t : Text) : Text := (dropBlanks t.reverse).reverse

def trim (t : Text) : Text := dropBlanksEnd (dropBlanks t)

def words : Text → List Text
  | [] => []
  | [c] => if c.isBlank then [] else [[c]]
  | c :: d :: t =>
      if c.isBlank then words (d :: t)
      else if d.isBlank then [c] :: words (d :: t)
      else
        match words (d :: t) with
        | [] => [[c]]
        | w :: ws => (c :: w) :: ws

end Text

end TapeMachine
