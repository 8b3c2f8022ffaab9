import TapeMachine.Command.Basic
import TapeMachine.Definition.Stored
import TapeMachine.RunLog
import TapeMachine.Settings.Stored

set_option autoImplicit false

namespace TapeMachine.Command

def allowUndefined : Text := "--allow_undefined"

def maxSteps : Text := "--max_steps"

def windowOption : Text := "--window"

def delayOption : Text := "--delay"

def interactiveFlag : Text := "--interactive"

def quietFlag : Text := "--quiet"

def traceGrammar : Grammar :=
  { options := [⟨allowUndefined, .flag, false⟩, ⟨maxSteps, .whole, false⟩, ⟨windowOption, .whole, false⟩,
      ⟨delayOption, .fraction, false⟩, ⟨interactiveFlag, .flag, false⟩, ⟨quietFlag, .flag, false⟩]
    takesOperand := true }

def tracePlan (settings : Settings) : TracePlan :=
  { permissive := Settings.truth Settings.allowUndefined settings
    maxSteps := Settings.value Settings.maxSteps settings
    radius := Settings.value Settings.tapeWindow settings
    shown := Settings.value Settings.displayLimit settings
    historyLimit := Settings.value Settings.historyLimit settings }

def runTrace (d : Definition) (plan : TracePlan) : Job Trace := Job.lift ((d.trace plan).mapError .trace)

def printReport [Screen] (trace : Trace) (d : Definition) : Job Unit := do
  Job.print (.lines (← Job.lift ((trace.report d).mapError .report)))

def traceEntry (path today : Text) (trace : Trace) : Except Fault Json := do
  let m := trace.machine
  let tape ← (joinSymbols m.tape.dense).mapError .ofNotText
  return .object [("definition", .text path), ("status", .text (m.status.getD .active).name),
    ("steps_taken", .int m.steps),
    ("transitions", .int (trace.log.numbersOf .transition).length), ("head", .int m.head),
      ("final_state", .int m.state.id),
    ("tape", .text tape), ("timestamp", .text (today ++ "T00:00:00+00:00"))]

def trace [Screen] (pieces : List Text) : Command := do
  let settings ← Settings.loadOrDefault Settings.defaultPath
  withArguments traceGrammar pieces fun a => do
    let path := a.operand.getD []
    let usual := tracePlan settings
    let plan : TracePlan :=
      { usual with
        permissive := a.has allowUndefined || usual.permissive
        maxSteps := a.value maxSteps usual.maxSteps
        radius := a.value windowOption usual.radius
        delay := if a.has interactiveFlag then .null else a.value delayOption
          (Settings.value Settings.stepDelay settings)
        live := !a.has quietFlag }
    let traced ← reported isReported "An error occurred" do
      let d ← Definition.load (Path.ofText path)
      Job.say ("Config loaded from '" ++ path ++ "'.")
      return (d, ← runTrace d plan)
    match traced with
    | none => return 1
    | some (d, trace) =>
        printReport trace d
        let log ← RunLog.ofSettings settings
        log.record [← Job.lift (traceEntry path (← Job.today) trace)]
        return 0

end TapeMachine.Command
