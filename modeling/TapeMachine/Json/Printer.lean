import TapeMachine.Decimal.Literal
import TapeMachine.Json.Basic

set_option autoImplicit false

namespace TapeMachine.Json

def unicodeEscape (n : Nat) : Text := "\\u" ++ hexFixed 4 n

def escapedPoint (c : CodePoint) : Text :=
  let n := c.val
  if c = '"' then "\\\""
  else if c = '\\' then "\\\\"
  else if n = 0x08 then "\\b"
  else if n = 0x09 then "\\t"
  else if n = 0x0A then "\\n"
  else if n = 0x0C then "\\f"
  else if n = 0x0D then "\\r"
  else if 0x20 ≤ n ∧ n < 0x7F then [c]
  else if n < 0x10000 then unicodeEscape n
  else unicodeEscape (0xD800 + (n - 0x10000) / 0x400) ++ unicodeEscape (0xDC00 + (n - 0x10000) % 0x400)

def stringLiteral (t : Text) : Text := "\"" ++ t.flatMap escapedPoint ++ "\""

def floatLiteral (d : Binary64) : Text :=
  match d.view with
  | .nan => "NaN"
  | .infinite s => Binary64.minus s ++ "Infinity"
  | .finite _ _ _ => d.text

mutual
def compact : Json → Text
  | .null => "null"
  | .bool true => "true"
  | .bool false => "false"
  | .int i => signedNumeral i
  | .float d => floatLiteral d
  | .text t => stringLiteral t
  | .list items => "[" ++ Text.join ", " (compactItems items) ++ "]"
  | .object fields => "\x7b" ++ Text.join ", " (compactFields fields) ++ "\x7d"

def compactItems : List Json → List Text
  | [] => []
  | item :: items => compact item :: compactItems items

def compactFields : List (Text × Json) → List Text
  | [] => []
  | (key, value) :: fields => (stringLiteral key ++ ": " ++ compact value) :: compactFields fields
end

def lineStart (level : Nat) : Text := CodePoint.ofChar '\n' :: List.replicate (4 * level) (CodePoint.ofChar ' ')

def block (level : Nat) (start finish : Text) (parts : List Text) : Text :=
  if parts.isEmpty then start ++ finish
  else start ++ lineStart (level + 1) ++ Text.join ("," ++ lineStart (level + 1)) parts ++ lineStart level ++ finish

mutual
def indentedAt (level : Nat) : Json → Text
  | .list items => block level "[" "]" (indentedItems (level + 1) items)
  | .object fields => block level "\x7b" "\x7d" (indentedFields (level + 1) fields)
  | .null => "null"
  | .bool true => "true"
  | .bool false => "false"
  | .int i => signedNumeral i
  | .float d => floatLiteral d
  | .text t => stringLiteral t

def indentedItems (level : Nat) : List Json → List Text
  | [] => []
  | item :: items => indentedAt level item :: indentedItems level items

def indentedFields (level : Nat) : List (Text × Json) → List Text
  | [] => []
  | (key, value) :: fields => (stringLiteral key ++ ": " ++ indentedAt level value) :: indentedFields level fields
end

def indented (value : Json) : Text := indentedAt 0 value

mutual
def isWritable : Json → Bool
  | .int i => i.natAbs < tenTo digitLimit
  | .list items => areWritable items
  | .object fields => areWritableFields fields
  | _ => true

def areWritable : List Json → Bool
  | [] => true
  | item :: items => isWritable item && areWritable items

def areWritableFields : List (Text × Json) → Bool
  | [] => true
  | (_, value) :: fields => isWritable value && areWritableFields fields
end

end TapeMachine.Json
