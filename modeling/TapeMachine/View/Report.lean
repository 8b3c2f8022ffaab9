import TapeMachine.Trace
import TapeMachine.Binary.Definition
import TapeMachine.Text.Lines
import TapeMachine.View.Styled

set_option autoImplicit false

namespace TapeMachine

inductive ReportFault where
  | encode (fault : EncodeFault)
  | notText (fault : NotText)
  | noHeadCell
deriving DecidableEq

def blanks (n : Nat) : Text := List.replicate n (CodePoint.ofChar ' ')

def dashes (n : Nat) : Text := List.replicate n (CodePoint.ofChar '-')

def firstItems {α : Type} (limit : Option Int) (xs : List α) : List α :=
  match limit with
  | none => xs
  | some n => if n < 0 then xs.take (xs.length - n.natAbs) else xs.take n.toNat

namespace Machine

def tapeLine (m : Machine) (radius : Int) : StyledLine :=
  let cells := (m.window radius).zipIdx.foldl
    (fun l (s, i) =>
      let l := if (i : Int) = radius then l.append s.plain "bold cyan" else l.append s.plain
      l.append " | ")
    (StyledLine.of tapeStart)
  cells.append " - - - -"

def picture (m : Machine) (size : PictureSize) : List StyledLine :=
  let indent := blanks size.column
  m.tapeLine size.radius :: StyledLine.of (indent ++ "^") "cyan" :: StyledLine.of (indent ++ m.state.describe) ::
    (firstItems size.limit m.state.transitions).map fun t =>
      StyledLine.of (indent ++ "[" ++ numeral m.state.id ++ "] " ++ t.describe)

end Machine

namespace Frame

def row (f : Frame) (index : Nat) (radius : Int) : Except ReportFault StyledLine :=
  match f.window[radius.toNat]? with
  | none => .error .noHeadCell
  | some c =>
      if radius < 0 then .error .noHeadCell
      else
        let start := "[" ++ hexPadded 8 index ++ "] " ++ Text.padLeft 3 (numeral f.state) ++ ":   ....." ++
          f.window.take radius.toNat
        .ok (((StyledLine.of start).append [c] "red").append (f.window.drop (radius.toNat + 1) ++ "....."))

def rowsFrom (index : Nat) (radius : Int) : List Frame → Except ReportFault (List StyledLine)
  | [] => .ok []
  | f :: rest => do
      let row ← f.row index radius
      return row :: (← rowsFrom (index + 1) radius rest)

end Frame

namespace Trace

def verdict (trace : Trace) (d : Definition) : StyledLine :=
  let start := StyledLine.of "\nThe turing machine "
  let judged := match trace.machine.status with
    | some .accepted => (start.append "halted and ").append "ACCEPTED" "bold green"
    | some .rejected => (start.append "halted and ").append "REJECTED" "bold red"
    | _ => start.append "DID NOT HALT on" "bold yellow"
  judged.append (" the input '" ++ d.memory.getD [] ++ "' after " ++ numeral trace.machine.steps ++ " step(s).")

def report (trace : Trace) (d : Definition) : Except ReportFault (List StyledLine) := do
  let bytes ← (Binary.encodeDefinition d).mapError .encode
  let text ← d.toText.mapError .notText
  let history ← Frame.rowsFrom 0 trace.radius trace.history
  return [trace.verdict d, StyledLine.of (dashes 44 ++ " DEBUG DATA " ++ dashes 44),
    StyledLine.of "Configuration (bytes):"] ++
    (Hex.rows 32 bytes).map (fun row => StyledLine.of ("    " ++ row)) ++
    [StyledLine.of "\nConfiguration (readable):"] ++
    (Text.boundaryLines text).map (fun row => StyledLine.of ("    " ++ row) "yellow") ++
    [StyledLine.of "History:\n"] ++ history ++ [StyledLine.of (dashes 100)]

end Trace

end TapeMachine
