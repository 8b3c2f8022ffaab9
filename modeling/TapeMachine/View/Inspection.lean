import TapeMachine.Definition.Basic
import TapeMachine.View.Screen
import TapeMachine.View.Styled

set_option autoImplicit false

namespace TapeMachine

namespace State

def cell (s : State) (symbol : Symbol) : Text :=
  match s.next? symbol with
  | none => "---"
  | some t => t.output.plain ++ [t.action.capital] ++ numeral t.target

def label (s : State) (start : Label) : Text :=
  let marker : Text := if start.names s.id then "> " else []
  let name := marker ++ numeral s.id
  if s.isAccepting then Screen.styled "green" (name ++ " A")
  else if s.isRejecting then Screen.styled "red" (name ++ " R")
  else name

end State

namespace Definition

def cells (d : Definition) (s : State) : List Text := d.charset.map fun x => s.cell (.text x)

def transitionTable (d : Definition) : List (State × List Text) :=
  d.configuration.states.map fun s => (s, d.cells s)

def optionalText (t : Option Text) : Text :=
  match t with
  | some t => t.quoted
  | none => Json.null.quoted

def inspection (d : Definition) : List Print :=
  let start := d.configuration.start
  [ .text ("  Charset: " ++ Text.join " " d.charset),
    .text ("  Blank: " ++ optionalText d.blank),
    .text ("  Initial memory: " ++ optionalText d.memory),
    .text ("  States: " ++ numeral d.configuration.states.length ++ "  Start: " ++ start.plain),
    .table
      { title := "Transition Table"
        columns := "State" :: d.charset.map Text.quoted
        rows := d.transitionTable.map fun (s, row) => s.label start :: row } ]

end Definition

end TapeMachine
