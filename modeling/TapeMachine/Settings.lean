import TapeMachine.Json.Entries

set_option autoImplicit false

namespace TapeMachine

inductive SettingType where
  | whole
  | truth
  | text
  | number
deriving DecidableEq

inductive SettingsFault where
  | missing (key : Text)
  | wrongType (key : Text) (expected : SettingType) (got : Json)
  | notPositive (key : Text) (value : Json)
  | negative (key : Text) (value : Json)
  | notFields (value : Json)
  | notPair (index : Nat) (value : Json)
  | pairLength (index length : Nat)
  | noKey (value : Json)

namespace Json

def className (name : Text) : Text := "<class '" ++ name ++ "'>"

end Json

namespace SettingType

def accepts : SettingType → Json → Bool
  | .whole, .int _ => true
  | .truth, .bool _ => true
  | .text, .text _ => true
  | .number, .int _ => true
  | .number, .float _ => true
  | _, _ => false

def name : SettingType → Text
  | .whole => Json.className "int"
  | .truth => Json.className "bool"
  | .text => Json.className "str"
  | .number => "(" ++ Json.className "int" ++ ", " ++ Json.className "float" ++ ")"

end SettingType

namespace SettingsFault

def message : SettingsFault → Text
  | .missing key => "Missing required configuration key: " ++ key
  | .wrongType key expected got =>
      "Config key '" ++ key ++ "' expected " ++ expected.name ++ ", got " ++ Json.className got.typeName ++ "."
  | .notPositive key value => "Config key '" ++ key ++ "' must be positive, got " ++ value.plain ++ "."
  | .negative key value => "Config key '" ++ key ++ "' must not be negative, got " ++ value.plain ++ "."
  | .notFields value => "'" ++ value.typeName ++ "' object is not iterable"
  | .notPair index _ =>
      "cannot convert dictionary update sequence element #" ++ numeral index ++ " to a sequence"
  | .pairLength index length =>
      "dictionary update sequence element #" ++ numeral index ++ " has length " ++ numeral length ++ "; 2 is required"
  | .noKey value => "unhashable type: '" ++ value.typeName ++ "'"

def isTypeFault : SettingsFault → Bool
  | .wrongType _ _ _ => true
  | .notFields _ => true
  | .notPair _ _ => true
  | .noKey _ => true
  | _ => false

end SettingsFault

abbrev Settings := Entries

namespace Settings

def maxSteps : Text := "max_steps"
def allowUndefined : Text := "allow_undefined"
def tapeWindow : Text := "tape_window"
def displayLimit : Text := "transition_display_limit"
def historyLimit : Text := "history_limit"
def stepDelay : Text := "step_delay"
def workerThreads : Text := "worker_threads"
def batchSize : Text := "batch_size"
def outputDirectory : Text := "output_directory"
def logTag : Text := "log_file_prefix"
def resultsDirectory : Text := "results_directory"

def find? (key : Text) (settings : Settings) : Option Json := Entries.find? (.text key) settings

def value (key : Text) (settings : Settings) : Json := (settings.find? key).getD .null

def defaults : Settings :=
  Entries.ofFields
    [(maxSteps, .int 100000), (allowUndefined, .bool false), (tapeWindow, .int 20), (displayLimit, .int 10),
      (historyLimit, .int 10000), (stepDelay, .float (Binary64.zero false)), (workerThreads, .int 4),
      (batchSize, .int 256), (outputDirectory, .text "logs/"), (logTag, .text "turing_"),
      (resultsDirectory, .text "results/")]

def required : List (Text × SettingType) :=
  [(maxSteps, .whole), (allowUndefined, .truth), (tapeWindow, .whole), (displayLimit, .whole), (historyLimit, .whole),
    (stepDelay, .number), (workerThreads, .whole), (batchSize, .whole), (outputDirectory, .text), (logTag, .text),
    (resultsDirectory, .text)]

def positiveKeys : List Text := [maxSteps, tapeWindow, workerThreads, batchSize]

def unsignedKeys : List Text := [displayLimit, historyLimit, stepDelay]

def isPositive : Json → Bool
  | .int i => 0 < i
  | _ => true

def isNegative : Json → Bool
  | .int i => i < 0
  | .float d => d.isNegative
  | _ => false

def checkTypes (settings : Settings) : List (Text × SettingType) → Except SettingsFault Unit
  | [] => .ok ()
  | (key, expected) :: rest =>
      match settings.find? key with
      | none => .error (.missing key)
      | some value =>
          if expected.accepts value then checkTypes settings rest else .error (.wrongType key expected value)

def checkPositive (settings : Settings) : List Text → Except SettingsFault Unit
  | [] => .ok ()
  | key :: rest =>
      let value := settings.value key
      if isPositive value then checkPositive settings rest else .error (.notPositive key value)

def checkUnsigned (settings : Settings) : List Text → Except SettingsFault Unit
  | [] => .ok ()
  | key :: rest =>
      let value := settings.value key
      if isNegative value then .error (.negative key value) else checkUnsigned settings rest

def validate (settings : Settings) : Except SettingsFault Unit := do
  checkTypes settings required
  checkPositive settings positiveKeys
  checkUnsigned settings unsignedKeys

def pairsFrom (index : Nat) : List Json → Except SettingsFault Entries
  | [] => .ok []
  | item :: rest => do
      let parts ← match item with
        | .list parts => pure parts
        | .text t => pure (t.map fun c => Json.text [c])
        | .object fields => pure (fields.map fun field => Json.text field.1)
        | value => throw (.notPair index value)
      match parts with
      | [key, value] =>
          if key.isKey then return (key, value) :: (← pairsFrom (index + 1) rest)
          else throw (.noKey key)
      | _ => throw (.pairLength index parts.length)

def added : Json → Except SettingsFault Entries
  | .object fields => .ok (Entries.ofFields fields)
  | .list items => (pairsFrom 0 items).map Entries.gather
  | .text t => pairsFrom 0 (t.map fun c => Json.text [c])
  | value => .error (.notFields value)

def ofDefaults (added : Entries) : Settings := Entries.insertAll added defaults

end Settings

end TapeMachine
