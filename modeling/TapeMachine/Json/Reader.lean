import TapeMachine.Json.Basic
import TapeMachine.Decimal.Literal

set_option autoImplicit false

namespace TapeMachine

inductive JsonFlaw where
  | value
  | key
  | colon
  | comma
  | unterminated
  | controlCode
  | escape
  | unitEscape
  | trailing
  | byteOrderMark
deriving DecidableEq

inductive JsonFault where
  | malformed (flaw : JsonFlaw) (rest : Text)
  | tooLong (digits : Nat)
  | tooDeep (shape : Text)
deriving DecidableEq

namespace Json

def isSpace (c : CodePoint) : Bool := c = ' ' || c = '\t' || c = '\n' || c = '\r'

def dropSpaces (t : Text) : Text := t.dropWhile isSpace

def hexValue? (c : CodePoint) : Option Nat :=
  let n := c.val
  if 0x30 ≤ n ∧ n ≤ 0x39 then some (n - 0x30)
  else if 0x41 ≤ n ∧ n ≤ 0x46 then some (n - 0x37)
  else if 0x61 ≤ n ∧ n ≤ 0x66 then some (n - 0x57)
  else none

def readUnit? : Text → Option (Nat × Text)
  | a :: b :: c :: d :: rest =>
      match hexValue? a, hexValue? b, hexValue? c, hexValue? d with
      | some w, some x, some y, some z => some (w * 4096 + x * 256 + y * 16 + z, rest)
      | _, _, _, _ => none
  | _ => none

def shortEscapes : List (Char × Nat) :=
  [('"', 0x22), ('\\', 0x5C), ('/', 0x2F), ('b', 0x08), ('f', 0x0C), ('n', 0x0A), ('r', 0x0D), ('t', 0x09)]

def isHighSurrogate (n : Nat) : Bool := 0xD800 ≤ n && n ≤ 0xDBFF

def isLowSurrogate (n : Nat) : Bool := 0xDC00 ≤ n && n ≤ 0xDFFF

def nextUnit? : Text → Option Text
  | a :: b :: rest => if a = '\\' ∧ b = 'u' ∧ 4 < rest.length then some (b :: rest) else none
  | _ => none

def readUnitEscape (t : Text) : Except JsonFault (Nat × Text) :=
  if t.length ≤ 5 then .error (.malformed .unitEscape t)
  else
    match readUnit? (t.drop 1) with
    | none => .error (.malformed .unitEscape t)
    | some (high, rest) =>
        if isHighSurrogate high then
          match nextUnit? rest with
          | none => .ok (high, rest)
          | some again =>
              match readUnit? (again.drop 1) with
              | none => .error (.malformed .unitEscape again)
              | some (low, after) =>
                  if isLowSurrogate low then .ok (0x10000 + (high - 0xD800) * 0x400 + (low - 0xDC00), after)
                  else .ok (high, rest)
        else .ok (high, rest)

def readEscape (opening : Text) (slash : CodePoint) : Text → Except JsonFault (Nat × Text)
  | [] => .error (.malformed .unterminated opening)
  | c :: t =>
      if c = 'u' then readUnitEscape (c :: t)
      else
        match shortEscapes.find? fun e => c = CodePoint.ofChar e.1 with
        | some (_, n) => .ok (n, t)
        | none => .error (.malformed .escape (slash :: c :: t))

def readString (opening reversed : Text) : Nat → Text → Except JsonFault (Text × Text)
  | 0, _ => .error (.malformed .unterminated opening)
  | _ + 1, [] => .error (.malformed .unterminated opening)
  | fuel + 1, c :: t =>
      if c = '"' then .ok (reversed.reverse, t)
      else if c.val < 0x20 then .error (.malformed .controlCode (c :: t))
      else if c = '\\' then do
        let (n, rest) ← readEscape opening c t
        match CodePoint.ofNat? n with
        | some point => readString opening (point :: reversed) fuel rest
        | none => throw (.malformed .escape (c :: t))
      else readString opening (c :: reversed) fuel t

def spanDigits (t : Text) : Text × Text := (t.takeWhile CodePoint.isDigit, t.dropWhile CodePoint.isDigit)

def readFraction : Text → Text × Text
  | [] => ([], [])
  | c :: t =>
      if c = '.' then
        match spanDigits t with
        | ([], _) => ([], c :: t)
        | found => found
      else ([], c :: t)

def readExponent : Text → Option Int × Text
  | [] => (none, [])
  | c :: t =>
      if c = 'e' ∨ c = 'E' then
        let (negative, body) := Literal.splitSign t
        match spanDigits body with
        | ([], _) => (none, c :: t)
        | (digits, rest) =>
            let size : Int := numeralValue digits
            (some (if negative then -size else size), rest)
      else (none, c :: t)

def readMagnitude (whole : Text) (negative : Bool) (t : Text) : Except JsonFault (Json × Text) :=
  let (digits, afterDigits) := spanDigits t
  match digits with
  | [] => .error (.malformed .value whole)
  | d :: _ =>
      let (whole, rest) := if d = '0' then ([d], t.drop 1) else (digits, afterDigits)
      let (fraction, rest) := readFraction rest
      let (exponent, rest) := readExponent rest
      if fraction = [] ∧ exponent = none then
        if digitLimit < whole.length then .error (.tooLong whole.length)
        else
          let size : Int := numeralValue whole
          .ok (.int (if negative then -size else size), rest)
      else
        .ok (.float (Binary64.ofDecimal negative (numeralValue (whole ++ fraction))
          (exponent.getD 0 - fraction.length)), rest)

def literals : List (String × Json) :=
  [("null", .null), ("true", .bool true), ("false", .bool false), ("NaN", .float Binary64.notNumber),
    ("Infinity", .float (Binary64.infinity false)), ("-Infinity", .float (Binary64.infinity true))]

def readScalar (t : Text) : Except JsonFault (Json × Text) :=
  match literals.find? fun l => t.startsWith (Text.ofString l.1) with
  | some (name, value) => .ok (value, t.drop name.length)
  | none =>
      match t with
      | [] => .error (.malformed .value t)
      | c :: rest => if c = '-' then readMagnitude t true rest else readMagnitude t false t

def readKey (fuel : Nat) : Text → Except JsonFault (Text × Text)
  | [] => .error (.malformed .key [])
  | c :: t => if c = '"' then readString (c :: t) [] fuel t else .error (.malformed .key (c :: t))

def expectColon : Text → Except JsonFault Text
  | [] => .error (.malformed .colon [])
  | c :: t => if c = ':' then .ok t else .error (.malformed .colon (c :: t))

def nestingLimit : Nat := 985

mutual
def readValue : Nat → Nat → Text → Except JsonFault (Json × Text)
  | 0, _, t => .error (.malformed .value t)
  | _ + 1, _, [] => .error (.malformed .value [])
  | fuel + 1, depth, c :: t =>
      if c = '"' then do
        let (s, rest) ← readString (c :: t) [] (fuel + 1) t
        return (.text s, rest)
      else if c = '[' then
        let body := dropSpaces t
        if nestingLimit ≤ depth then .error (.tooDeep "array")
        else if body.head? = some (CodePoint.ofChar ']') then .ok (.list [], body.drop 1)
        else do
          let (items, rest) ← readItems fuel (depth + 1) body
          return (.list items, rest)
      else if c = '\x7b' then
        let body := dropSpaces t
        if nestingLimit ≤ depth then .error (.tooDeep "object")
        else if body.head? = some (CodePoint.ofChar '\x7d') then .ok (.object [], body.drop 1)
        else do
          let (fields, rest) ← readFields fuel (depth + 1) [] body
          return (.object fields, rest)
      else readScalar (c :: t)

def readItems : Nat → Nat → Text → Except JsonFault (List Json × Text)
  | 0, _, t => .error (.malformed .value t)
  | fuel + 1, depth, t => do
      let (item, rest) ← readValue fuel depth t
      match dropSpaces rest with
      | [] => .error (.malformed .comma [])
      | c :: rest =>
          if c = ']' then return ([item], rest)
          else if c = ',' then do
            let (items, rest) ← readItems fuel depth (dropSpaces rest)
            return (item :: items, rest)
          else .error (.malformed .comma (c :: rest))

def readFields : Nat → Nat → Fields → Text → Except JsonFault (Fields × Text)
  | 0, _, _, t => .error (.malformed .key t)
  | fuel + 1, depth, fields, t => do
      let (key, rest) ← readKey (fuel + 1) t
      let rest ← expectColon (dropSpaces rest)
      let (value, rest) ← readValue fuel depth (dropSpaces rest)
      let fields := fields.insert key value
      match dropSpaces rest with
      | [] => .error (.malformed .comma [])
      | c :: rest =>
          if c = '\x7d' then return (fields, rest)
          else if c = ',' then readFields fuel depth fields (dropSpaces rest)
          else .error (.malformed .comma (c :: rest))
end

/-- Reads a whole text; a byte order mark in front is refused. -/
def read (t : Text) : Except JsonFault Json := do
  if (t.head?.map CodePoint.val) = some 0xFEFF then throw (.malformed .byteOrderMark t)
  let (value, rest) ← readValue (2 * t.length + 2) 0 (dropSpaces t)
  match dropSpaces rest with
  | [] => return value
  | more => throw (.malformed .trailing more)

end Json

namespace JsonFlaw

def message : JsonFlaw → Text
  | .value => "Expecting value"
  | .key => "Expecting property name enclosed in double quotes"
  | .colon => "Expecting ':' delimiter"
  | .comma => "Expecting ',' delimiter"
  | .unterminated => "Unterminated string starting at"
  | .controlCode => "Invalid control character at"
  | .escape => "Invalid \\escape"
  | .unitEscape => "Invalid \\uXXXX escape"
  | .trailing => "Extra data"
  | .byteOrderMark => "Unexpected UTF-8 BOM (decode using utf-8-sig)"

end JsonFlaw

end TapeMachine
