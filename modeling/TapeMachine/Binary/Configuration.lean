import TapeMachine.Binary.Cursor
import TapeMachine.Control.Configuration
import TapeMachine.Decimal.Literal

set_option autoImplicit false

namespace TapeMachine

inductive EncodeFault where
  | refusedSymbol (codec : SymbolCodec) (symbol : Symbol)
  | literal (fault : LiteralFault)
  | outOfRange
  | notWhole
  | surrogate
deriving DecidableEq

def orOutOfRange (bytes : Option Bytes) : Except EncodeFault Bytes :=
  match bytes with
  | some bytes => .ok bytes
  | none => .error .outOfRange

namespace SymbolCodec

/-- A symbol of one code point is that code point; for numbers a text is read as a literal. -/
def encode (codec : SymbolCodec) (symbol : Symbol) : Except EncodeFault Bytes :=
  let refused : Except EncodeFault Bytes := .error (.refusedSymbol codec symbol)
  match codec, symbol with
  | .char, .text [c] => .ok (Word.encode 4 c.val)
  | .char, _ => refused
  | .int32, .int i => match Word.encodeSigned? i with
    | some bytes => .ok bytes
    | none => refused
  | .int32, .text t => match Literal.readInteger t with
    | .error fault => .error (.literal fault)
    | .ok i => match Word.encodeSigned? i with
      | some bytes => .ok bytes
      | none => refused
  | .int32, .null => refused

def decode (codec : SymbolCodec) (bytes : Bytes) : Except DecodeFault Symbol :=
  match codec with
  | .char => match CodePoint.ofNat? (Word.decode bytes) with
    | some c => .ok (.char c)
    | none => .error (.badSymbol .char bytes)
  | .int32 => .ok (.int (Word.decodeSigned bytes))

def width : Nat := 4

end SymbolCodec

namespace Binary

def encodeId (id : Int) : Except EncodeFault Bytes := orOutOfRange (Word.encodeUnsigned? 8 id)

def encodeLabel : Label → Except EncodeFault Bytes
  | .int i => encodeId i
  | .bool b => encodeId (if b then 1 else 0)
  | _ => .error .notWhole

def encodeCount (n : Nat) : Except EncodeFault Bytes := orOutOfRange (Word.encodeSigned? n)

def encodeAll {α : Type} (encode : α → Except EncodeFault Bytes) : List α → Except EncodeFault Bytes
  | [] => .ok []
  | a :: rest => do
      let bytes ← encode a
      return bytes ++ (← encodeAll encode rest)

def encodeTransition (codec : SymbolCodec) (t : Transition) : Except EncodeFault Bytes := do
  let count ← encodeCount t.inputs.length
  let inputs ← encodeAll codec.encode t.inputs
  let output ← codec.encode t.output
  let target ← encodeId t.target
  return Word.encode 1 t.action.tag ++ count ++ inputs ++ output ++ target

def encodeState (codec : SymbolCodec) (s : State) : Except EncodeFault Bytes := do
  let id ← encodeId s.id
  let count ← encodeCount s.transitions.length
  let transitions ← encodeAll (encodeTransition codec) s.transitions
  return id ++ Word.encode 1 s.acceptance.tag ++ count ++ transitions

def encodeConfiguration (codec : SymbolCodec) (c : Configuration) : Except EncodeFault Bytes := do
  let count ← encodeCount c.states.length
  return count ++ (← encodeAll (encodeState codec) c.states)

def acceptance : Decoder Acceptance := do
  let tag ← Decoder.unsigned .acceptance 1
  match Acceptance.ofTag? tag with
  | some a => return a
  | none => throw (.unknownTag .acceptance tag)

def action : Decoder Action := do
  let tag ← Decoder.unsigned .action 1
  match Action.ofTag? tag with
  | some a => return a
  | none => throw (.unknownTag .action tag)

def symbol (codec : SymbolCodec) (field : BinaryField) : Decoder Symbol := do
  let bytes ← Decoder.take field SymbolCodec.width
  match codec.decode bytes with
  | .ok s => return s
  | .error fault => throw fault

def transition (codec : SymbolCodec) (state : Nat) : Decoder Transition := do
  let action ← action
  let n ← Decoder.count .inputCount SymbolCodec.width
  if n = 0 then throw (.noInputs state)
  let inputs ← Decoder.times (symbol codec .inputSymbol) n
  let output ← symbol codec .outputSymbol
  let target ← Decoder.unsigned .target 8
  return ⟨target, action, output, firstSeen inputs⟩

def stateSize : Nat := 8 + 1 + 4

def transitionSize : Nat := 1 + 4 + 2 * SymbolCodec.width + 8

def state (codec : SymbolCodec) (c : Configuration) : Decoder State := do
  let id ← Decoder.unsigned .stateId 8
  if (c.find? id).isSome then throw (.duplicateState id)
  let acceptance ← acceptance
  let n ← Decoder.count (.transitionCount id) transitionSize
  let transitions ← Decoder.times (transition codec id) n
  return State.ofTransitions id acceptance transitions

def states (codec : SymbolCodec) : Nat → Configuration → Decoder Configuration
  | 0, c => return c
  | n + 1, c => do
      let s ← state codec c
      states codec n (c.add s)

def configuration (codec : SymbolCodec) : Decoder Configuration := do
  let n ← Decoder.count .stateCount stateSize
  let c ← states codec n {}
  Decoder.finish
  return c

def decodeConfiguration (codec : SymbolCodec) (bytes : Bytes) : Except DecodeFault Configuration :=
  Decoder.run (configuration codec) bytes

end Binary

end TapeMachine
