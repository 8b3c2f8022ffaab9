import TapeMachine.Decimal.Literal
import TapeMachine.Json.Equality

set_option autoImplicit false

namespace TapeMachine

inductive ArgumentForm where
  | flag
  | text
  | whole
  | fraction
  | help
deriving DecidableEq

structure OptionRule where
  name : Text
  form : ArgumentForm
  required : Bool := false
deriving DecidableEq

structure Grammar where
  options : List OptionRule
  takesOperand : Bool := false

structure Arguments where
  given : List (Text × Json) := []
  operand : Option Text := none

inductive Stop where
  | help
  | refused
deriving DecidableEq

def Stop.code : Stop → Nat
  | .help => 0
  | .refused => 2

namespace Arguments

def find? (a : Arguments) (name : Text) : Option Json := (a.given.find? fun g => g.1 = name).map Prod.snd

def has (a : Arguments) (name : Text) : Bool := (a.find? name).isSome

def value (a : Arguments) (name : Text) (default : Json) : Json := (a.find? name).getD default

def someText? (a : Arguments) (name : Text) : Option Text :=
  match a.find? name with
  | some (.text (c :: t)) => some (c :: t)
  | _ => none

def add (a : Arguments) (name : Text) (value : Json) : Arguments := { a with given := (name, value) :: a.given }

end Arguments

inductive Mark where
  | argument
  | separator
  | option (rule : OptionRule) (value : Option Text)
  | helpLetters (more : Text)
  | unknown
deriving DecidableEq

inductive Due where
  | anything
  | value (rule : OptionRule)
  | operand
  | afterOperand
deriving DecidableEq

structure Progress where
  arguments : Arguments := {}
  due : Due := .anything
  extra : Bool := false

namespace Grammar

def dash : CodePoint := '-'

def separator : Text := [dash, dash]

def helpRule : OptionRule := ⟨"--help", .help, false⟩

def rules (g : Grammar) : List OptionRule := helpRule :: g.options

def splitValue (t : Text) : Text × Option Text :=
  match t.dropWhile (· ≠ CodePoint.ofChar '=') with
  | [] => (t, none)
  | _ :: value => (t.takeWhile (· ≠ CodePoint.ofChar '='), some value)

def isNegativeNumber : Text → Bool
  | [] => false
  | c :: t =>
      let body := if t.getLast? = some (CodePoint.ofChar '\n') then t.dropLast else t
      let isDecimal (d : CodePoint) : Bool := d.decimalValue?.isSome
      c = dash &&
        match body.dropWhile isDecimal with
        | [] => !body.isEmpty
        | d :: rest => d = '.' && !rest.isEmpty && rest.all isDecimal

def markUnnamed (t : Text) : Mark :=
  if isNegativeNumber t ∨ t.contains (CodePoint.ofChar ' ') then .argument else .unknown

def markShortened (g : Grammar) (t : Text) : Except Stop Mark :=
  let (name, value) := splitValue t
  match g.rules.filter fun r => r.name.startsWith name with
  | [] => .ok (markUnnamed t)
  | [r] => .ok (.option r value)
  | _ => .error .refused

def markLetters (t : Text) : Mark :=
  match t with
  | _ :: c :: more => if c = 'h' then .helpLetters more else markUnnamed t
  | _ => .argument

def mark (g : Grammar) (t : Text) : Except Stop Mark :=
  match t with
  | [] => .ok .argument
  | [_] => .ok .argument
  | c :: d :: _ =>
      if c ≠ dash then .ok .argument
      else if d ≠ dash then .ok (markLetters t)
      else
        let (name, value) := splitValue t
        match g.rules.find? fun r => r.name = t, g.rules.find? fun r => r.name = name with
        | some r, _ => .ok (.option r none)
        | none, some r => .ok (.option r value)
        | none, none => g.markShortened t

def markAll (g : Grammar) : List Text → Except Stop (List (Text × Mark))
  | [] => .ok []
  | t :: rest =>
      if t = separator then .ok ((t, .separator) :: rest.map (·, .argument))
      else do
        let m ← g.mark t
        return (t, m) :: (← markAll g rest)

def readValue (form : ArgumentForm) (t : Text) : Except Stop Json :=
  if t = separator then .ok (.list [])
  else
    match form with
    | .whole => match Literal.readInteger t with
      | .ok i => .ok (.int i)
      | .error _ => .error .refused
    | .fraction => match Literal.readFraction? t with
      | some d => .ok (.float d)
      | none => .error .refused
    | _ => .ok (.text t)

def takeValue (p : Progress) (rule : OptionRule) (t : Text) : Except Stop Progress := do
  let value ← readValue rule.form t
  return { p with arguments := p.arguments.add rule.name value, due := .anything }

def takeHelp : Text → Stop
  | [] => .help
  | c :: t =>
      let more := if c = '=' then t else c :: t
      if !more.isEmpty && more.all (· = CodePoint.ofChar 'h') then .help else .refused

def takeOption (p : Progress) (rule : OptionRule) (value : Option Text) : Except Stop Progress :=
  match rule.form, value with
  | .help, none => .error .help
  | .help, some _ => .error .refused
  | .flag, none => .ok { p with arguments := p.arguments.add rule.name (.bool true), due := .anything }
  | .flag, some _ => .error .refused
  | _, some t => takeValue p rule t
  | _, none => .ok { p with due := .value rule }

def takeArgument (g : Grammar) (p : Progress) (t : Text) : Progress :=
  if g.takesOperand && p.arguments.operand.isNone then
    { p with arguments := { p.arguments with operand := some t }, due := .afterOperand }
  else { p with extra := true, due := .anything }

def takeSeparator (g : Grammar) (p : Progress) : Progress :=
  if g.takesOperand && p.arguments.operand.isNone then { p with due := .operand }
  else { p with extra := p.extra || p.due ≠ .afterOperand, due := .anything }

def takePiece (g : Grammar) (p : Progress) (piece : Text × Mark) : Except Stop Progress :=
  match p.due, piece.2 with
  | .value rule, .argument => takeValue p rule piece.1
  | .value _, _ => .error .refused
  | _, .argument => .ok (g.takeArgument p piece.1)
  | _, .separator => .ok (g.takeSeparator p)
  | _, .option rule value => takeOption p rule value
  | _, .helpLetters more => .error (takeHelp more)
  | _, .unknown => .ok { p with extra := true, due := .anything }

def isComplete (g : Grammar) (p : Progress) : Bool :=
  !p.extra && (p.due = .anything || p.due = .afterOperand) && (!g.takesOperand || p.arguments.operand.isSome) &&
    g.options.all fun r => !r.required || p.arguments.has r.name

def read (g : Grammar) (pieces : List Text) : Except Stop Arguments := do
  let marked ← g.markAll pieces
  let p ← marked.foldlM g.takePiece {}
  if g.isComplete p then return p.arguments else throw .refused

end Grammar

end TapeMachine
