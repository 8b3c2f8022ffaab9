import TapeMachine.Command.Trace
import TapeMachine.Pool.Simulation

set_option autoImplicit false

namespace TapeMachine.Command

def definitionOption : Text := "--definition"

def poolOption : Text := "--pool"

def outputOption : Text := "--output"

def batchSize : Text := "--batch_size"

def threads : Text := "--threads"

def maxLength : Text := "--max_length"

def minLength : Text := "--min_length"

def poolGrammar : Grammar :=
  { options := [⟨definitionOption, .text, true⟩, ⟨poolOption, .text, true⟩, ⟨outputOption, .text, false⟩,
      ⟨batchSize, .whole, false⟩, ⟨maxSteps, .whole, false⟩, ⟨threads, .whole, false⟩, ⟨allowUndefined, .flag, false⟩] }

def generateGrammar : Grammar :=
  { options := [⟨definitionOption, .text, true⟩, ⟨maxLength, .whole, false⟩, ⟨minLength, .whole, false⟩,
      ⟨outputOption, .text, false⟩] }

def poolRun (definitionPath poolFile : Json) (settings : Settings) : PoolRun :=
  { definitionPath
    poolFile
    batchSize := Settings.value Settings.batchSize settings
    maxSteps := Settings.value Settings.maxSteps settings
    permissive := Settings.truth Settings.allowUndefined settings
    workers := Settings.value Settings.workerThreads settings
    resultsFolder := Settings.value Settings.resultsDirectory settings }

def simulateLogged [Screen] [Arrays] (run : PoolRun) (settings : Settings) : Job Summary := do
  run.simulate (some (← RunLog.ofSettings settings))

def pool [Screen] [Arrays] (pieces : List Text) : Command := do
  let settings ← Settings.loadOrDefault Settings.defaultPath
  withArguments poolGrammar pieces fun a => do
    let run := poolRun (a.value definitionOption .null) (a.value poolOption .null) settings
    let summary ← simulateLogged
      { run with
        outputName := (a.value outputOption (.text run.outputName)).plain
        batchSize := a.value batchSize run.batchSize
        maxSteps := a.value maxSteps run.maxSteps
        workers := a.value threads run.workers
        permissive := a.has allowUndefined || run.permissive } settings
    Job.print (.fields summary.toFields)
    return 0

def generate [Memory] (pieces : List Text) : Command :=
  withArguments generateGrammar pieces fun a => do
    let _ ← Pool.generate (a.value definitionOption .null) (a.value minLength (.int 1)) (a.value maxLength (.int 4))
      (a.value outputOption .null)
    return 0

end TapeMachine.Command
