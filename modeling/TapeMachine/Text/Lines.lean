import TapeMachine.Text.CodePoint

set_option autoImplicit false

namespace TapeMachine.Text

/-- The pieces between line feeds; there is always one more piece than line feeds. -/
def splitLines : Text → List Text
  | [] => [[]]
  | c :: t =>
      if c = '\n' then [] :: splitLines t
      else
        match splitLines t with
        | [] => [[c]]
        | l :: ls => (c :: l) :: ls

/-- Every carriage return, with the line feed after it if there is one, becomes a line feed. -/
def unifyLineEnds : Text → Text
  | [] => []
  | [c] => if c = '\r' then ['\n'] else [c]
  | c :: d :: t =>
      if c = '\r' then
        if d = '\n' then CodePoint.ofChar '\n' :: unifyLineEnds t else CodePoint.ofChar '\n' :: unifyLineEnds (d :: t)
      else c :: unifyLineEnds (d :: t)

def fileLines (t : Text) : List Text :=
  let pieces := splitLines t
  if pieces.getLast? = some [] then pieces.dropLast else pieces

def isLineBoundary (c : CodePoint) : Bool :=
  let n := c.val
  (0x0A ≤ n && n ≤ 0x0D) || (0x1C ≤ n && n ≤ 0x1E) || n == 0x85 || n == 0x2028 || n == 0x2029

def boundaryLines : Text → List Text
  | [] => []
  | [c] => if isLineBoundary c then [[]] else [[c]]
  | c :: d :: t =>
      if c = '\r' ∧ d = '\n' then [] :: boundaryLines t
      else if isLineBoundary c then [] :: boundaryLines (d :: t)
      else
        match boundaryLines (d :: t) with
        | [] => [[c]]
        | l :: ls => (c :: l) :: ls

@[simp] theorem split_lines_ne_nil (t : Text) : splitLines t ≠ [] := by
  cases t with
  | nil => simp [splitLines]
  | cons c t =>
      rw [splitLines]
      split
      · simp
      · split <;> simp

end TapeMachine.Text
