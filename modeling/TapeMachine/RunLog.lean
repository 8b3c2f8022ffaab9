import TapeMachine.Json.Printer
import TapeMachine.Session

set_option autoImplicit false

namespace TapeMachine

structure RunLog where
  folder : Text
  tag : Text
  day : Text
deriving DecidableEq

inductive Outcome where
  | accepted
  | rejected
  | unhalted
deriving DecidableEq

namespace Outcome

def name : Outcome → Text
  | .accepted => "accepted"
  | .rejected => "rejected"
  | .unhalted => "unhalted"

def ofStatus (status : Json) : Outcome :=
  match status with
  | .text t =>
      if t = Status.accepted.name then .accepted else if t = Status.rejected.name then .rejected else .unhalted
  | _ => .unhalted

def ofEntry : Json → Except Fault Outcome
  | .object fields =>
      match Fields.find? "status" fields with
      | none => .ok .unhalted
      | some (.list items) => .error (.noKey (.list items))
      | some (.object fields) => .error (.noKey (.object fields))
      | some status => .ok (ofStatus status)
  | value => .error (.noFields value)

end Outcome

namespace RunLog

def file (log : RunLog) (stem : Text) : Text := joinPath log.folder (stem ++ log.day ++ ".jsonl")

def current (log : RunLog) : Text := log.file log.tag

def outcomeFile (log : RunLog) (outcome : Outcome) : Text := log.file (outcome.name ++ "_")

def lines (entries : List Json) : Text := entries.flatMap fun e => e.compact ++ "\n"

def appendLines (path : Text) (entries : List Json) : Job Unit := do
  Job.appendText path (lines (entries.takeWhile Json.isWritable))
  if !entries.all Json.isWritable then throw .longNumber

def openIn (folder tag : Json) : Job RunLog := do
  let folder ← Job.pathText folder
  Job.makeFolders folder
  return ⟨folder, tag.plain, ← Job.today⟩

def required (key : Text) (settings : Settings) : Except Fault Json :=
  match settings.find? key with
  | some value => .ok value
  | none => .error (.missing key)

def ofSettings (settings : Settings) : Job RunLog := do
  let folder ← Job.lift (required Settings.outputDirectory settings)
  let tag ← Job.lift (required Settings.logTag settings)
  openIn folder tag

def record (log : RunLog) (entries : List Json) : Job Unit := appendLines log.current entries

def recordOutcome (log : RunLog) (outcome : Outcome) (entries : List Json) : Job Unit :=
  appendLines (log.outcomeFile outcome) entries

def turnOver (log : RunLog) : Job RunLog := do return { log with day := ← Job.today }

def outcomesOf (entries : List Json) : Except Fault (List (Outcome × Json)) :=
  entries.mapM fun e => (Outcome.ofEntry e).map (·, e)

/-- Records entries under their outcomes, in the order in which the outcomes come up, and all of
them in the main file. -/
def recordByOutcome (log : RunLog) (entries : List Json) : Job Unit := do
  let sorted ← Job.lift (outcomesOf entries)
  (firstSeen (sorted.map Prod.fst)).forM fun outcome =>
    log.recordOutcome outcome ((sorted.filter fun s => s.1 = outcome).map Prod.snd)
  log.record entries

end RunLog

end TapeMachine
