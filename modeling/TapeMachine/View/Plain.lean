import TapeMachine.View.Styled

set_option autoImplicit false

namespace TapeMachine.Print

def row (cells : List Text) : Text := Text.join " | " cells

def suggestion (default : Option Json) (choices : Option (List Text)) : Text :=
  let offered : Text := match choices with
    | some names => " [" ++ Text.join "/" names ++ "]"
    | none => []
  let usual : Text := match default with
    | some value => " (" ++ value.plain ++ ")"
    | none => []
  offered ++ usual ++ ":"

def plainLines : Print → List Text
  | .text t => [t]
  | .table t => t.title :: row t.columns :: t.rows.map row
  | .lines ls => ls.map StyledLine.text
  | .fields fs => fs.map fun (key, value) => key ++ ": " ++ value.plain
  | .ask question default choices => [question ++ suggestion default choices]

end TapeMachine.Print
