import TapeMachine.Definition.Line
import TapeMachine.Definition.Pattern

set_option autoImplicit false

namespace TapeMachine.Line

open Pattern (many word)

/-- The kinds of lines, each with the pattern that it is told by. -/
inductive Kind where
  | comment
  | charset
  | blank
  | memory
  | state
  | transition
deriving DecidableEq

namespace Kind

def isSolid (c : CodePoint) : Bool := !c.isBlank

def isInline (c : CodePoint) : Bool := c ≠ CodePoint.ofChar '\n'

def isSign (sign : Char) (c : CodePoint) : Bool := c = CodePoint.ofChar sign

def isLetter (letter : Char) (c : CodePoint) : Bool := c.folded = CodePoint.ofChar letter

def isTag (c : CodePoint) : Bool := isLetter 'a' c || isLetter 'r' c

def isMove (c : CodePoint) : Bool := isLetter 'l' c || isLetter 'r' c || isSign '-' c

def directive (name : List Char) (value : Pattern) : Pattern := .both (word isLetter '%' name)
    (.both (many CodePoint.isBlank) value)

def pattern : Kind → Pattern
  | comment => .either (word isSign ';' []) (.either (word isSign '/' ['/']) (word isSign '-' ['-']))
  | charset => directive ['c', 'h', 'a', 'r', 's', 'e', 't'] (.named .symbols (many isInline))
  | blank => directive ['b', 'l', 'a', 'n', 'k'] (.named .blank (.one isSolid))
  | memory => directive ['m', 'e', 'm', 'o', 'r', 'y'] (.named .memory (many isInline))
  | state =>
      .both (.perhaps (.named .start (.both (.one (isSign '>')) (.run CodePoint.isBlank)))) <|
      .both (.named .id (many CodePoint.isDigit)) <|
      .both (.run CodePoint.isBlank) <|
      .perhaps (.named .acceptance (.one isTag))
  | transition =>
      .both (.named .source (many CodePoint.isDigit)) <|
      .both (many CodePoint.isBlank) <|
      .both (.named .inputs (many isSolid)) <|
      .both (.run CodePoint.isBlank) <|
      .both (word isSign '-' ['>']) <|
      .both (.run CodePoint.isBlank) <|
      .both (.named .output (.one isSolid)) <|
      .both (many CodePoint.isBlank) <|
      .both (.named .action (.one isMove)) <|
      .both (many CodePoint.isBlank) <|
      .named .target (many CodePoint.isDigit)

def closes (kind : Kind) (rest : Text) : Bool := kind = comment || rest = [] || rest = [CodePoint.ofChar '\n']

def Fits (kind : Kind) (t : Text) (groups : Groups) : Prop :=
  ∃ taken rest, t = taken ++ rest ∧ kind.pattern.Matches taken groups ∧ kind.closes rest = true

def first? (kind : Kind) (t : Text) : Option Groups :=
  ((kind.pattern.ways t).find? fun way => kind.closes way.rest).map Way.groups

end Kind

def Kind.line? (groups : Groups) : Kind → Option Line
  | comment => some .comment
  | charset => (groups.lookup .symbols).map fun symbols => .charset ((Text.words symbols).filterMap List.head?)
  | blank => do
      match ← groups.lookup .blank with
      | [c] => some (.blank c)
      | _ => none
  | memory => (groups.lookup .memory).map .memory
  | state => do
      let acceptance ← acceptance? ((groups.lookup .acceptance).getD [])
      return .state (groups.lookup .start).isSome (← groups.lookup .id) acceptance
  | transition => do
      match ← groups.lookup .output, ← groups.lookup .action with
      | [output], [letter] =>
          return .transition (← groups.lookup .source) (← groups.lookup .inputs) output (← action? letter)
            (← groups.lookup .target)
      | _, _ => none

def readBy (order : List Kind) (t : Text) : Option Line :=
  order.findSome? fun kind => kind.first? t >>= fun groups => kind.line? groups

end TapeMachine.Line
