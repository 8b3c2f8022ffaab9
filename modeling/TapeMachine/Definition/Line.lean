import TapeMachine.Control.Transition
import TapeMachine.Text.Blank
import TapeMachine.Text.Lines

set_option autoImplicit false

namespace TapeMachine

/-- A line by its form; ids are still runs of digits. -/
inductive Line where
  | empty
  | comment
  | charset (symbols : List CodePoint)
  | blank (symbol : CodePoint)
  | memory (word : Text)
  | state (isStart : Bool) (id : Text) (acceptance : Acceptance)
  | transition (source inputs : Text) (output : CodePoint) (action : Action) (target : Text)
deriving DecidableEq

namespace Line

def isComment : Text → Bool
  | [] => false
  | c :: t => c = ';' || (match t with
      | [] => false
      | d :: _ => (c = '/' && d = '/') || (c = '-' && d = '-'))

def afterWord? : List Char → Text → Option Text
  | [], t => some t
  | _ :: _, [] => none
  | k :: ks, c :: t => if c.folded = k then afterWord? ks t else none

def afterBlanks? : Text → Option Text
  | [] => none
  | c :: t => if c.isBlank then some (Text.dropBlanks t) else none

def directive? (name : List Char) (t : Text) : Option Text := do
  let rest ← afterWord? name t >>= afterBlanks?
  if rest = [] ∨ rest.contains (CodePoint.ofChar '\n') then none else some rest

def charset? (t : Text) : Option Line :=
  (directive? ['%', 'c', 'h', 'a', 'r', 's', 'e', 't'] t).map fun rest =>
    .charset ((Text.words rest).filterMap List.head?)

def blank? (t : Text) : Option Line := do
  match ← directive? ['%', 'b', 'l', 'a', 'n', 'k'] t with
  | [c] => some (.blank c)
  | _ => none

def memory? (t : Text) : Option Line :=
  (directive? ['%', 'm', 'e', 'm', 'o', 'r', 'y'] t).map .memory

def digits? (t : Text) : Option (Text × Text) :=
  match t.takeWhile CodePoint.isDigit with
  | [] => none
  | d :: ds => some (d :: ds, t.dropWhile CodePoint.isDigit)

def acceptance? : Text → Option Acceptance
  | [] => some .none
  | [c] => if c.folded = 'a' then some .accept else if c.folded = 'r' then some .reject else none
  | _ => none

def splitStart : Text → Bool × Text
  | [] => (false, [])
  | c :: t => if c = '>' then (true, Text.dropBlanks t) else (false, c :: t)

def state? (t : Text) : Option Line := do
  let (isStart, body) := splitStart t
  let (id, rest) ← digits? body
  let acceptance ← acceptance? (Text.dropBlanks rest)
  return .state isStart id acceptance

def action? (c : CodePoint) : Option Action :=
  if c.folded = 'l' then some .left else if c.folded = 'r' then some .right else if c = '-' then some .stay else none

def single? : Text → Option (CodePoint × Text)
  | [] => none
  | c :: t => (afterBlanks? t).map (c, ·)

def arrowInputs? (reversed : Text) : Option Text :=
  match Text.dropBlanks reversed with
  | c :: d :: t =>
      if c = '>' ∧ d = '-' then
        let inputs := Text.dropBlanks t
        if inputs = [] ∨ inputs.any CodePoint.isBlank then none else some inputs.reverse
      else none
  | _ => none

def transition? (t : Text) : Option Line := do
  let (source, rest) ← digits? t
  let body ← afterBlanks? rest
  let (target, rest) ← digits? body.reverse
  let (letter, rest) ← afterBlanks? rest >>= single?
  let action ← action? letter
  match rest with
  | [] => none
  | output :: rest =>
      let inputs ← arrowInputs? rest
      return .transition source inputs output action target.reverse

def read? (t : Text) : Option Line :=
  if t = [] then some .empty
  else if isComment t then some .comment
  else charset? t <|> blank? t <|> memory? t <|> state? t <|> transition? t

/-- A raw line is trimmed after its carriage returns became blanks. -/
def trimmed (raw : Text) : Text :=
  Text.trim (raw.map fun (c : CodePoint) => if c = '\r' then CodePoint.ofChar ' ' else c)

end Line

end TapeMachine
