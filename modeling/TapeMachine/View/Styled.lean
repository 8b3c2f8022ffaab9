import TapeMachine.Symbol

set_option autoImplicit false

namespace TapeMachine

structure Piece where
  text : Text
  style : Text := []
deriving DecidableEq

structure StyledLine where
  pieces : List Piece
  style : Text := []
deriving DecidableEq

namespace StyledLine

def of (t : Text) (style : Text := []) : StyledLine := { pieces := [{ text := t }], style }

def append (l : StyledLine) (t : Text) (style : Text := []) : StyledLine :=
  { l with pieces := l.pieces ++ [{ text := t, style }] }

def text (l : StyledLine) : Text := l.pieces.flatMap Piece.text

end StyledLine

structure Table where
  title : Text
  columns : List Text
  rows : List (List Text)
deriving DecidableEq

inductive Print where
  | text (text : Text)
  | table (table : Table)
  | lines (lines : List StyledLine)
  | fields (fields : Fields)
  | ask (question : Text) (default : Option Json) (choices : Option (List Text))

namespace Table

def column (t : Table) (header : Text) (i : Nat) : List Text := header :: t.rows.filterMap fun row => row[i]?

def markup (t : Table) : List Text := (t.columns.zipIdx.flatMap fun (header, i) => t.column header i) ++ [t.title]

end Table

/-- The texts of a print that are searched for tags, in the order in which they are. Lines that are
styled already are not searched. -/
def Print.markup : Print → List Text
  | .text t => [t]
  | .table t => t.markup
  | .lines _ => []
  | .fields _ => []
  | .ask question _ _ => [question]

end TapeMachine
