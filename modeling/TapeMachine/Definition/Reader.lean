import TapeMachine.Definition.Basic
import TapeMachine.Definition.Line
import TapeMachine.Decimal.Literal

set_option autoImplicit false

namespace TapeMachine

inductive Refusal where
  | noForm
  | blankUndeclared (symbol : CodePoint)
  | undeclared (symbols : List CodePoint)
deriving DecidableEq

namespace Refusal

def message : Refusal → Text
  | .noForm => "Unable to parse line"
  | .blankUndeclared c => "The character '" ++ [c] ++ "' must be in the charset before being set as blank symbol"
  | .undeclared cs =>
      "The character(s) '" ++ Text.join "', '" (cs.map ([·])) ++ "' must be in the charset before being added"

end Refusal

inductive SourceFault where
  | refused (number : Nat) (line : Text) (reason : Refusal)
  | longNumeral (digits : Nat)
deriving DecidableEq

inductive LineFault where
  | refused (reason : Refusal)
  | longNumeral (digits : Nat)
deriving DecidableEq

def LineFault.located (number : Nat) (line : Text) : LineFault → SourceFault
  | .refused reason => .refused number line reason
  | .longNumeral digits => .longNumeral digits

namespace Definition

def readId (digits : Text) : Except LineFault Nat :=
  if digitLimit < digits.length then .error (.longNumeral digits.length) else .ok (numeralValue digits)

def declare (d : Definition) (symbols : List CodePoint) : Definition :=
  { d with charset := symbols.foldl (fun acc c => if acc.contains [c] then acc else acc ++ [[c]]) d.charset }

def checkDeclared (d : Definition) (symbols : Text) : Except LineFault Unit :=
  match firstSeen (symbols.filter fun c => !d.declares c) with
  | [] => .ok ()
  | c :: cs => .error (.refused (.undeclared (c :: cs)))

def declareState (d : Definition) (id : Nat) (acceptance : Acceptance) : Definition :=
  let transitions := ((d.configuration.find? id).map State.transitions).getD []
  { d with configuration := d.configuration.add ⟨id, acceptance, transitions⟩ }

def fileTransition (d : Definition) (source : Nat) (t : Transition) : Definition :=
  let s := (d.configuration.find? source).getD ⟨source, .none, []⟩
  { d with configuration := d.configuration.add (s.withTransition t) }

def enter (d : Definition) : Line → Except LineFault Definition
  | .empty => .ok d
  | .comment => .ok d
  | .charset symbols => .ok (d.declare symbols)
  | .blank c => if d.declares c then .ok { d with blank := some [c] } else .error (.refused (.blankUndeclared c))
  | .memory word => do
      d.checkDeclared word
      return { d with memory := some word }
  | .state isStart digits acceptance => do
      let id ← readId digits
      let d := d.declareState id acceptance
      return if isStart then { d with configuration := { d.configuration with start := Label.ofId id } } else d
  | .transition source inputs output action target => do
      let source ← readId source
      d.checkDeclared (inputs ++ [output])
      let target ← readId target
      return d.fileTransition source ⟨target, action, .char output, (SymbolSource.word inputs).symbols⟩

def enterText (d : Definition) (t : Text) : Except LineFault Definition :=
  match Line.read? t with
  | some line => d.enter line
  | none => .error (.refused .noForm)

def readFrom (d : Definition) (number : Nat) : List Text → Except SourceFault Definition
  | [] => .ok d
  | raw :: rest =>
      match d.enterText (Line.trimmed raw) with
      | .ok d => readFrom d (number + 1) rest
      | .error fault => .error (fault.located number (Line.trimmed raw))

def ofLines (lines : List Text) : Except SourceFault Definition := readFrom {} 1 lines

def ofText (t : Text) : Except SourceFault Definition := ofLines (Text.splitLines t)

end Definition

namespace SourceFault

def limitMessage (digits : Nat) : Text :=
  "Exceeds the limit (" ++ numeral digitLimit ++
    " digits) for integer string conversion: value has " ++ numeral digits ++
    " digits; use sys.set_int_max_str_digits() to increase the limit"

def message : SourceFault → Text
  | .refused number line reason => reason.message ++ " (line no. " ++ numeral number ++ ": " ++ line ++ ")"
  | .longNumeral digits => limitMessage digits

end SourceFault

end TapeMachine
