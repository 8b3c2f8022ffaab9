import TapeMachine.Binary.Configuration
import TapeMachine.Definition.Basic
import TapeMachine.Text.Blank

set_option autoImplicit false

namespace TapeMachine

inductive Base64Fault where
  | notAscii
  | decode (fault : DecodeFault)
deriving DecidableEq

namespace Definition

def usedTexts (d : Definition) : List Text :=
  (d.memory.getD []).map ([·]) ++ d.blank.toList ++
    d.configuration.states.flatMap fun s => s.transitions.flatMap fun t =>
      (t.output :: t.inputs).filterMap fun
        | .text value => some value
        | _ => none

def foreignTexts (d : Definition) : List Text :=
  Text.sorted (firstSeen (d.usedTexts.filter fun t => !d.charset.contains t))

end Definition

namespace Binary

def encodeText : Option Text → Except EncodeFault Bytes
  | none => orOutOfRange (Word.encodeSigned? (-1))
  | some t =>
      match Utf8.encode t with
      | none => .error .surrogate
      | some bytes => do return (← encodeCount bytes.length) ++ bytes

def encodeDefinition (d : Definition) : Except EncodeFault Bytes := do
  let inner ← encodeConfiguration .char d.configuration
  let size ← encodeCount inner.length
  let blank ← encodeText d.blank
  let memory ← encodeText d.memory
  let charset ← encodeText (some d.charset.flatten)
  let start ← encodeLabel d.configuration.start
  return size ++ inner ++ blank ++ memory ++ charset ++ start

def inner : Decoder Configuration := do
  let size ← Decoder.count .configurationLength 1
  let bytes ← Decoder.take .configuration size
  match decodeConfiguration .char bytes with
  | .ok c => return c
  | .error fault => throw fault

def blank : Decoder (Option Text) := do
  match ← Decoder.text? .blank with
  | none => return none
  | some [c] => return some [c]
  | some t => throw (.badBlank t)

def charset : Decoder Text := do
  match ← Decoder.text? .charset with
  | some t => return t
  | none => throw .noCharset

def checkAlphabet (d : Definition) : Decoder Definition :=
  match d.foreignTexts with
  | [] => return d
  | foreign => throw (.foreignSymbols foreign)

def definition : Decoder Definition := do
  let c ← inner
  let blank ← blank
  let memory ← Decoder.text? .memory
  let charset ← charset
  let start ← Decoder.unsigned .start 8
  Decoder.finish
  checkAlphabet ⟨{ c with start := Label.ofId start }, (firstSeen charset).map ([·]), blank, memory⟩

def decodeDefinition (bytes : Bytes) : Except DecodeFault Definition := Decoder.run definition bytes

def encodeBase64 (d : Definition) : Except EncodeFault Text := (encodeDefinition d).map Base64.encode

def decodeBase64 (t : Text) : Except Base64Fault Definition :=
  let payload := Text.trim t
  if payload.all (fun c => c.val < 0x80) then
    match Base64.decode payload with
    | .error fault => .error (.decode (.payload fault))
    | .ok bytes => match decodeDefinition bytes with
      | .error fault => .error (.decode fault)
      | .ok d => .ok d
  else .error .notAscii

end Binary

end TapeMachine
