import TapeMachine.Bytes.Word
import TapeMachine.Bytes.Base64
import TapeMachine.Bytes.Hex
import TapeMachine.Text.Utf8
import TapeMachine.Symbol

set_option autoImplicit false

namespace TapeMachine

inductive TextPart where
  | blank
  | memory
  | charset
deriving DecidableEq

inductive BinaryField where
  | stateCount
  | stateId
  | acceptance
  | transitionCount (state : Nat)
  | action
  | inputCount
  | inputSymbol
  | outputSymbol
  | target
  | configurationLength
  | configuration
  | textLength (part : TextPart)
  | text (part : TextPart)
  | start
deriving DecidableEq

inductive SymbolCodec where
  | char
  | int32
deriving DecidableEq

inductive DecodeFault where
  | truncated (field : BinaryField) (need : Int) (offset left : Nat)
  | badCount (field : BinaryField) (count : Int) (left : Nat)
  | unknownTag (field : BinaryField) (tag : Nat)
  | badSymbol (codec : SymbolCodec) (bytes : Bytes)
  | duplicateState (id : Nat)
  | noInputs (state : Nat)
  | notUtf8 (part : TextPart)
  | badBlank (blank : Text)
  | noCharset
  | foreignSymbols (symbols : List Text)
  | trailing (left : Nat)
  | payload (fault : Base64.Fault)
deriving DecidableEq

def TextPart.name : TextPart → Text
  | .blank => "blank symbol"
  | .memory => "initial memory"
  | .charset => "charset"

def BinaryField.name : BinaryField → Text
  | .stateCount => "state count"
  | .stateId => "state id"
  | .acceptance => "acceptance"
  | .transitionCount state => "transition count of state " ++ numeral state
  | .action => "action"
  | .inputCount => "input symbol count"
  | .inputSymbol => "input symbol"
  | .outputSymbol => "output symbol"
  | .target => "target id"
  | .configurationLength => "configuration length"
  | .configuration => "configuration"
  | .textLength part => part.name ++ " length"
  | .text part => part.name
  | .start => "start state id"

def SymbolCodec.name : SymbolCodec → Text
  | .char => "char"
  | .int32 => "int32"

def quotedList (ts : List Text) : Text := "[" ++ Text.join ", " (ts.map Text.quoted) ++ "]"

namespace DecodeFault

def message : DecodeFault → Text
  | .truncated field need offset left =>
      "Truncated input reading " ++ field.name ++ ": need " ++ signedNumeral need ++ " bytes at offset " ++
        numeral offset ++ ", " ++ numeral left ++ " left."
  | .badCount field count left =>
      "Invalid " ++ field.name ++ " " ++ signedNumeral count ++ " with " ++ numeral left ++ " bytes left."
  | .unknownTag field tag => "Unknown " ++ field.name ++ " tag " ++ numeral tag ++ "."
  | .badSymbol codec bytes => "Invalid " ++ codec.name ++ " symbol bytes " ++ Hex.digits bytes ++ "."
  | .duplicateState id => "State " ++ numeral id ++ " is encoded twice."
  | .noInputs state => "A transition of state " ++ numeral state ++ " has no input symbols."
  | .notUtf8 part => part.name ++ " is not valid UTF-8."
  | .badBlank blank => "Blank symbol must be a single character, got " ++ blank.quoted ++ "."
  | .noCharset => "Charset is missing."
  | .foreignSymbols symbols => "Symbols " ++ quotedList symbols ++ " are used but not part of the charset."
  | .trailing left => numeral left ++ " unexpected trailing bytes."
  | .payload fault => "Invalid base64 payload: " ++ Text.ofString fault.message

end DecodeFault

structure Cursor where
  rest : Bytes
  offset : Nat := 0
deriving DecidableEq

abbrev Decoder := StateT Cursor (Except DecodeFault)

namespace Decoder

def take (field : BinaryField) (size : Int) : Decoder Bytes := fun cursor =>
  let left := cursor.rest.length
  if size < 0 ∨ left < size then .error (.truncated field size cursor.offset left)
  else .ok (cursor.rest.take size.toNat, ⟨cursor.rest.drop size.toNat, cursor.offset + size.toNat⟩)

def unsigned (field : BinaryField) (size : Nat) : Decoder Nat := do
  return Word.decode (← take field size)

def int32 (field : BinaryField) : Decoder Int := do
  return Word.decodeSigned (← take field 4)

def count (field : BinaryField) (size : Nat) : Decoder Nat := do
  let n ← int32 field
  let cursor ← get
  if n < 0 ∨ (cursor.rest.length : Int) < n * size then throw (.badCount field n cursor.rest.length)
  return n.toNat

def text? (part : TextPart) : Decoder (Option Text) := do
  let n ← int32 (.textLength part)
  if n = -1 then return none
  match Utf8.decode (← take (.text part) n) with
  | some t => return some t
  | none => throw (.notUtf8 part)

def finish : Decoder Unit := do
  let cursor ← get
  if cursor.rest ≠ [] then throw (.trailing cursor.rest.length)

def times {α : Type} (step : Decoder α) : Nat → Decoder (List α)
  | 0 => return []
  | n + 1 => do
      let a ← step
      let rest ← times step n
      return a :: rest

def run {α : Type} (decoder : Decoder α) (bytes : Bytes) : Except DecodeFault α :=
  (StateT.run decoder ⟨bytes, 0⟩).map Prod.fst

end Decoder

end TapeMachine
