import TapeMachine.Command.Inspect
import TapeMachine.Command.Pool

set_option autoImplicit false

namespace TapeMachine.Menu

def definitionsFolder : Text := "machines"

def poolsFolder : Text := "pools"

def definitionSuffixes : List Text := [Definition.linesSuffix, Definition.bytesSuffix, Definition.base64Suffix]

def poolSuffix : Text := ".txt"

def detect (folder : Text) (suffixes : List Text) : Job (List Path) := do
  let place := Path.ofText folder
  Job.makePath place
  let store := (← get).store
  return suffixes.flatMap fun suffix => (store.namesEndingWith place.names suffix).map fun name =>
    { place with names := place.names ++ [name] }

def fileTable (title : Text) (paths : List Path) : Table :=
  { title, columns := ["Index", "File"], rows := paths.zipIdx.map fun (p, i) => [numeral i, p.name] }

def pathAt (paths : List Path) (answer : Json) : Except Fault (Option Path) := do
  let place ← (Quantity.place? paths.length answer).mapError .quantity
  return place.bind fun i => paths[i]?

def title (t : Text) : Text := "\n" ++ Screen.styled "bold" t

def noFiles (folder : Text) : Text := Screen.styled "red" ("No files found in " ++ folder ++ "/.")

def invalidChoice : Text := Screen.styled "red" "Invalid choice."

def updated : Text := Screen.styled "green" "Configuration updated successfully."

def goodbye : Text := Screen.styled "bold green" "Goodbye!"

def chooseFile [Screen] (title folder : Text) (suffixes : List Text) : Job (Option Path) := do
  match ← detect folder suffixes with
  | [] =>
      Job.say (noFiles folder)
      return none
  | paths =>
      Job.print (.table (fileTable title paths))
      let answer ← Job.ask "\nChoose a file by Index" none none
      match ← Job.lift (pathAt paths answer) with
      | some path => return some path
      | none =>
          Job.say invalidChoice
          return none

def chooseDefinition [Screen] (suffixes : List Text) : Job (Option Path) :=
  chooseFile "Available Definitions" definitionsFolder suffixes

def askSetting [Screen] (question key : Text) (settings : Settings) : Job Json :=
  Job.ask question (settings.find? key) none

def trace [Screen] (settings : Settings) : Job Unit := do
  Job.say (title "Trace a Machine")
  match ← chooseDefinition definitionSuffixes with
  | none => return ()
  | some path =>
      let permissive ← askSetting "Allow undefined transitions?" Settings.allowUndefined settings
      let maxSteps ← askSetting "Max Steps" Settings.maxSteps settings
      let delay := Settings.value Settings.stepDelay settings
      let d ← Definition.load path
      let trace ← Command.runTrace d
        { Command.tracePlan settings with permissive := permissive.truth, maxSteps, delay, live := true }
      Command.printReport trace d

def summaryTable (summary : Summary) : Table :=
  let value : Json → Text
    | .int i => groupedNumeral i
    | .float d => d.twoPlaces
    | other => other.plain
  { title := "Pool Summary"
    columns := ["Metric", "Value"]
    rows := summary.toFields.map fun (key, v) => [key, value v] }

def pool [Screen] [Arrays] (settings : Settings) : Job Unit := do
  Job.say (title "Run Input Pool")
  match ← chooseDefinition [Definition.linesSuffix] with
  | none => return ()
  | some definitionPath =>
      match ← chooseFile "Available Pools" poolsFolder [poolSuffix] with
      | none => return ()
      | some poolPath =>
          let batchSize ← askSetting "Batch Size" Settings.batchSize settings
          let maxSteps ← askSetting "Max Steps" Settings.maxSteps settings
          let workers ← askSetting "Worker Threads" Settings.workerThreads settings
          let run := Command.poolRun (.text definitionPath.toText) (.text poolPath.toText) settings
          let summary ← Command.simulateLogged { run with batchSize, maxSteps, workers } settings
          Job.print (.table (summaryTable summary))

def convert [Screen] (d : Definition) (path : Path) (answer : Text) : Job Unit := do
  let target (suffix : Text) : Text := (path.withSuffix suffix).toText
  if answer = "binary" then d.storeBytes (path.withSuffix Definition.bytesSuffix)
  else if answer = "base64" then
    Job.writeText (target Definition.base64Suffix) (← d.base64)
    Job.say (Definition.wrote (target Definition.base64Suffix))
  else if answer = "text" then
    Job.writeText (target Definition.linesSuffix) (← d.lines)
    Job.say (Definition.wrote (target Definition.linesSuffix))

def inspect [Screen] : Job Unit := do
  Job.say (title "Inspect/Convert Definition")
  match ← chooseDefinition definitionSuffixes with
  | none => return ()
  | some path =>
      let d ← Definition.load path
      d.inspection.forM Job.print
      match ← Job.ask "Convert to" (some (.text "none")) (some ["binary", "base64", "text", "none"]) with
      | .text answer => convert d path answer
      | _ => return ()

def editQuestions : List (Text × Text) :=
  [("Max Steps", Settings.maxSteps), ("Allow undefined transitions?", Settings.allowUndefined),
    ("Tape Window (cells each side)", Settings.tapeWindow), ("Worker Threads", Settings.workerThreads),
    ("Batch Size", Settings.batchSize)]

def edited [Screen] (settings : Settings) : Job Settings := do
  Job.say (title "Edit Config")
  let answers ← editQuestions.mapM fun (question, key) => do return (Json.text key, ← askSetting question key settings)
  return Entries.insertAll answers settings

def saveAndReload [Screen] (settings : Settings) : Job Settings := do
  Settings.save settings Settings.defaultPath
  Job.say updated
  Settings.loadOrDefault Settings.defaultPath

def edit [Screen] (settings : Settings) : Job Settings := do
  let fresh ← edited settings
  return (← Command.reported Command.isReported "Error" (saveAndReload fresh)).getD fresh

def options : List Text := ["1", "2", "3", "4", "5"]

def heading : List Text :=
  ["\n" ++ Screen.styled "bold cyan" "Turing Machine Simulator", "[1] Trace a Machine", "[2] Run Input Pool",
    "[3] Inspect/Convert Definition", "[4] Edit Config", "[5] Exit"]

def attempt [Screen] (body : Job Unit) : Job Unit := do
  let _ ← Command.reported Command.isReported "Error" body

def loop [Screen] [Arrays] : Nat → Settings → Job Unit
  | 0, _ => throw .noAnswer
  | fuel + 1, settings => do
      heading.forM Job.say
      match ← Job.ask "\nChoose an option" (some (.text "5")) (some options) with
      | .text choice =>
          if choice = "5" then Job.say goodbye
          else if choice = "4" then do loop fuel (← edit settings)
          else do
            if choice = "1" then attempt (trace settings)
            else if choice = "2" then attempt (pool settings)
            else if choice = "3" then attempt inspect
            loop fuel settings
      | _ => loop fuel settings

def start [Screen] [Arrays] : Job Unit := do
  let settings ← Settings.loadOrDefault Settings.defaultPath
  loop ((← get).answers.length + 1) settings

end TapeMachine.Menu
