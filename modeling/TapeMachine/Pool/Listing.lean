import TapeMachine.Definition.Stored
import TapeMachine.Pool.Words

set_option autoImplicit false

namespace TapeMachine.Pool

def load (path : Text) : Job (List Text) := do
  let lines ← Job.readLines path
  return (lines.map Text.trim).filter fun word => word ≠ []

def rounded (i : Int) : Except Fault Binary64 :=
  let d := Binary64.ofInt i
  match d.view with
  | .finite _ _ _ => .ok d
  | _ => .error .hugeNumber

def power (base : Nat) (n : Int) : Except Fault Binary64 := do
  if n < 0 then
    let _ ← rounded n
    return if base = 1 then Binary64.ofInt 1 else if n < -1100 then Binary64.zero false
      else Binary64.ofRatio false 1 (base.pow n.natAbs)
  else if base = 1 then return Binary64.ofInt 1
  else if 1100 < n then throw .hugeNumber
  else rounded (base.pow n.toNat)

def addPowers (base : Nat) : Nat → Int → Binary64 → Except Fault Binary64
  | 0, _, sum => .ok sum
  | count + 1, n, sum => do addPowers base count (n + 1) (sum.add (← power base n))

def wordCount (base : Nat) (low high : Int) : Nat :=
  if base = 1 then (high - low + 1).toNat
  else (lengthsBetween low high).foldl (fun sum n => sum + base.pow n.toNat) 0

def total (base : Nat) (low high : Int) : Except Fault Text :=
  if low < 0 ∧ low ≤ high then
    (addPowers base (high - low + 1).toNat low (Binary64.zero false)).map Binary64.groupedText
  else
    let words := wordCount base low high
    if tenTo digitLimit ≤ words then .error .longNumber else .ok (groupedNumeral words)

def defaultFile (definitionPath : Text) (longest : Json) : Text :=
  (Path.ofText "pools" |>.child ((Path.ofText definitionPath).stem ++ "_len" ++ longest.plain ++ ".txt")).toText

def lines (words : List Text) : Text := words.flatMap fun word => word ++ "\n"

/-- Replaces a file by one line for each word. A length that is refused is found when the words
before it are written. -/
def list [Memory] (path : Path) (symbols : List Text) (low high : Int) : Job Nat := do
  Job.makePath path.parent
  let listed := WordList.between symbols low high
  Job.writeText path.toText (lines listed.words)
  Job.lift (listed.ends.mapError .quantity)
  return listed.words.length

def fileOr (default : Text) : Json → Json
  | .null => .text default
  | given => given

/-- Lists all words of a range of lengths over the input alphabet of a definition, and gives the
file. A path need not be a text; that of the file is looked at last. -/
def generate [Memory] (definitionPath shortest longest file : Json) : Job Text := do
  let definitionPath ← Job.pathText definitionPath
  let d ← Definition.loadLines (Path.ofText definitionPath)
  let symbols := d.inputAlphabet
  if symbols = [] then throw .noInputSymbols
  let (low, high) ← Job.lift ((Quantity.range shortest longest).mapError .quantity)
  let total ← Job.lift (total symbols.length low high)
  Job.writeLine ("[INFO] Preparing to generate " ++ total ++ " inputs over " ++ Text.join " " symbols ++ "...")
  let file ← Job.pathText (fileOr (defaultFile definitionPath longest) file)
  let count ← list (Path.ofText file) symbols low high
  Job.writeLine ("[INFO] Wrote " ++ groupedNumeral count ++ " inputs to " ++ file ++ ".")
  return file

end TapeMachine.Pool
