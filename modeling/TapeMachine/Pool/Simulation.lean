import TapeMachine.Pool.Checkpoint
import TapeMachine.Pool.Listing
import TapeMachine.RunLog

set_option autoImplicit false

namespace TapeMachine

structure PoolRun where
  definitionPath : Json
  poolFile : Json
  outputName : Text := "results"
  batchSize : Json := .int 256
  maxSteps : Json := .int 100000
  permissive : Bool := false
  workers : Json := .int 4
  resultsFolder : Json := .text "results"

inductive WordResult where
  | decided (entry : Entry)
  | failed (input : Text) (fault : RunFault)

namespace WordResult

def toJson : WordResult → Json
  | .decided entry => entry.toJson
  | .failed input fault =>
      .object [("input", .text input), ("status", .text failedStatus), ("error", .text fault.message)]

def tally : WordResult → Tally
  | .decided entry => ⟨.ok (.text entry.status.name), .ok (.int entry.steps)⟩
  | .failed _ _ => ⟨.ok (.text failedStatus), .error (.missing "steps_taken")⟩

def entry? : WordResult → Option Entry
  | .decided entry => some entry
  | .failed _ _ => none

end WordResult

namespace PoolRun

def folder (run : PoolRun) : Path :=
  (Path.ofText run.resultsFolder.plain).child (Path.ofText run.poolFile.plain).stem

def resultsFile (run : PoolRun) : Path := run.folder.child (run.outputName ++ ".jsonl")

def checkpointFile (run : PoolRun) : Path := run.folder.child (run.outputName ++ "_checkpoint.json")

def isExpected (k : FaultKind) : Bool := k.isValue || k.isLookup

/-- What becomes of a word: the machine runs on it, or the fault is told why it cannot. -/
def report (run : PoolRun) (d : Definition) (word : Text) : Except Fault WordResult :=
  match d.runInput word run.maxSteps run.permissive with
  | .ok entry => .ok (.decided entry)
  | .error fault => if isExpected (Fault.ofRun fault).kind then .ok (.failed word fault) else .error (.ofRun fault)

def warning (word : Text) (fault : RunFault) : Text :=
  Screen.styled "yellow" ("[WARNING] Failed to simulate " ++ word.quoted ++ ": " ++ fault.message)

def warnOf [Screen] : WordResult → Job Unit
  | .decided _ => return ()
  | .failed word fault => Job.warn (warning word fault)

def runWord [Screen] (run : PoolRun) (d : Definition) (word : Text) : Job WordResult := do
  let result ← Job.lift (run.report d word)
  warnOf result
  return result

def logEntries (log : Option RunLog) (entries : List Json) : Job Unit :=
  match log with
  | none => return ()
  | some log => do (← log.turnOver).recordByOutcome entries

def announced (number size : Nat) : Text :=
  "Processing batch " ++ numeral number ++ " with " ++ groupedNumeral size ++ " inputs..."

def writeBatch [Screen] (run : PoolRun) (d : Definition) (number : Nat) (batch : List Text) :
    Job (List WordResult) := do
  Job.say (announced number batch.length)
  Job.lift ((Quantity.checkWorkers run.workers).mapError .quantity)
  let results ← batch.mapM (run.runWord d)
  RunLog.appendLines run.resultsFile.toText (results.map WordResult.toJson)
  return results

def decided (results : List WordResult) : List Entry := results.filterMap WordResult.entry?

def saveBatch (run : PoolRun) (completed : Json) (results : List WordResult) : Job Json := do
  let completed ← Job.lift (Checkpoint.extend completed ((decided results).map Entry.input))
  Checkpoint.save run.checkpointFile completed
  return completed

def runBatches [Screen] (run : PoolRun) (d : Definition) (log : Option RunLog) (number : Nat) (completed : Json) :
    List (List Text) → Job (List WordResult)
  | [] => return []
  | batch :: rest => do
      let results ← run.writeBatch d number batch
      let completed ← run.saveBatch completed results
      logEntries log ((decided results).map Entry.toJson)
      return results ++ (← runBatches run d log (number + 1) completed rest)

def batchesOf (run : PoolRun) (pending : List Text) : Except Fault (List (List Text)) := do
  return batches (← (Quantity.stride run.batchSize).mapError .quantity) pending

structure Start where
  definition : Definition
  words : List Text
  completed : Json
  done : List Text
  due : List (List Text)

def loadedText (words pending : Nat) : Text :=
  "Loaded " ++ groupedNumeral words ++ " inputs. " ++ groupedNumeral pending ++ " pending."

def begin [Screen] (run : PoolRun) : Job Start := do
  let d ← Definition.loadLines (Path.ofText (← Job.pathText run.definitionPath))
  let poolFile ← Job.pathText run.poolFile
  let _ ← Job.pathText run.resultsFolder
  Job.makePath run.folder
  let words ← Pool.load poolFile
  let completed ← Checkpoint.load run.checkpointFile
  let done ← Job.lift (Checkpoint.words completed)
  let pending := words.filter fun word => !done.contains word
  Job.say (loadedText words.length pending.length)
  Job.appendText run.resultsFile.toText []
  return ⟨d, words, completed, done, ← Job.lift (run.batchesOf pending)⟩

def success (run : PoolRun) (runs : Nat) : Text :=
  Screen.styled "green"
    ("[SUCCESS] " ++ groupedNumeral runs ++ " inputs simulated. Results saved to " ++ run.resultsFile.toText)

def conclude [Screen] [Arrays] (run : PoolRun) (results : List WordResult) : Job Summary := do
  let summary ← Job.lift ((Summary.ofTallies (results.map WordResult.tally)).mapError .summary)
  Job.say (run.success summary.runs)
  return summary

def simulate [Screen] [Arrays] (run : PoolRun) (log : Option RunLog) : Job Summary := do
  let start ← run.begin
  let results ← run.runBatches start.definition log 1 start.completed start.due
  run.conclude results

/-- A call that is stopped after so many of its batches. -/
def stopAfter [Screen] (run : PoolRun) (log : Option RunLog) (count : Nat) : Job Unit := do
  let start ← run.begin
  let _ ← run.runBatches start.definition log 1 start.completed (start.due.take count)

end PoolRun

end TapeMachine
