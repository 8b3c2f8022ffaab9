import TapeMachine.Definition.Basic

set_option autoImplicit false

namespace TapeMachine

structure NotText where
  index : Nat
  symbol : Symbol
deriving DecidableEq

def NotText.message (fault : NotText) : Text :=
  let kind : Text := match fault.symbol with
    | .text _ => "str"
    | .int _ => "int"
    | .null => "NoneType"
  "sequence item " ++ numeral fault.index ++ ": expected str instance, " ++ kind ++ " found"

def joinSymbolsFrom (index : Nat) : List Symbol → Except NotText Text
  | [] => .ok []
  | .text t :: rest => (joinSymbolsFrom (index + 1) rest).map (t ++ ·)
  | s :: _ => .error ⟨index, s⟩

def joinSymbols (ss : List Symbol) : Except NotText Text := joinSymbolsFrom 0 ss

namespace Definition

def stateLine (start : Label) (s : State) : Text :=
  let marker : Text := if start.names s.id then "> " else []
  let tag : Text := match s.acceptance with
    | .accept => " A"
    | .reject => " R"
    | .none => []
  marker ++ numeral s.id ++ tag

def transitionLine (source : Nat) (t : Transition) : Except NotText Text := do
  let inputs ← joinSymbols t.inputs
  return numeral source ++ " " ++ inputs ++ " -> " ++ t.output.plain ++ " " ++ [t.action.letter] ++
    " " ++ numeral t.target

def headerLines (d : Definition) : List Text :=
  let charset : List Text := if d.charset = [] then [] else ["%charset " ++ Text.join " " d.charset]
  let memory : List Text := match d.memory with
    | none => []
    | some [] => []
    | some word => ["%memory " ++ word]
  let blank : List Text := match d.blank with
    | none => []
    | some b => ["%blank " ++ b]
  charset ++ memory ++ blank

def transitionLines (d : Definition) : Except NotText (List Text) := do
  let groups ← d.configuration.states.mapM fun s => s.transitions.mapM (transitionLine s.id)
  return groups.flatten

def toLines (d : Definition) : Except NotText (List Text) := do
  let transitions ← d.transitionLines
  return d.headerLines ++ d.configuration.states.map (stateLine d.configuration.start) ++ transitions

def toText (d : Definition) : Except NotText Text := do
  return Text.join "\n" (← d.toLines) ++ "\n"

end Definition

end TapeMachine
