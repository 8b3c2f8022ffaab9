import TapeMachine.Command.Menu

set_option autoImplicit false

namespace TapeMachine.Command

def traceOption : Text := "--trace"

def appGrammar : Grammar :=
  { options := [⟨traceOption, .text, false⟩, ⟨poolOption, .text, false⟩, ⟨definitionOption, .text, false⟩] }

def traceAtOnce [Screen] (path : Text) (settings : Settings) : Job Unit := do
  let d ← Definition.load (Path.ofText path)
  printReport (← runTrace d (tracePlan settings)) d

def atOnce [Screen] [Arrays] (a : Arguments) : Command := do
  let settings ← Settings.loadOrDefault Settings.defaultPath
  match a.someText? traceOption with
  | some path => traceAtOnce path settings
  | none => pure ()
  match a.someText? poolOption with
  | none => return 0
  | some poolFile =>
      match a.someText? definitionOption with
      | none =>
          Job.say (Screen.styled "red" "--pool needs --definition.")
          return 2
      | some definitionPath =>
          let _ ← simulateLogged (poolRun (.text definitionPath) (.text poolFile) settings) settings
          return 0

def app [Screen] [Arrays] (pieces : List Text) : Command :=
  withArguments appGrammar pieces fun a => do
    if (a.someText? traceOption).isSome ∨ (a.someText? poolOption).isSome then atOnce a
    else
      Menu.start
      return 0

def all [Screen] [Memory] [Arrays] : List (Text × (List Text → Command)) :=
  [("inspect", inspect), ("trace", trace), ("pool", pool), ("generate", generate), ("app", app)]

end TapeMachine.Command
