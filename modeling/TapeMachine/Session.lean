import TapeMachine.Fault
import TapeMachine.View.Screen

set_option autoImplicit false

namespace TapeMachine

structure Session where
  store : Store := {}
  today : Text := []
  answers : List Json := []
  printed : List Print := []
  warnings : List Text := []
  output : Text := []

abbrev Job := ExceptT Fault (StateM Session)

/-- Texts that are printed together; the first that is refused stops them all. -/
def Screen.takes [Screen] : List Text → Except Fault Unit
  | [] => .ok ()
  | t :: rest => match refuses t with
    | none => takes rest
    | some message => .error (.markup t message)

namespace Job

def runIn {α : Type} (s : Session) (job : Job α) : Except Fault α × Session := StateT.run (ExceptT.run job) s

def lift {α : Type} (result : Except Fault α) : Job α :=
  match result with
  | .ok a => return a
  | .error fault => throw fault

def recover {α : Type} (expected : FaultKind → Bool) (body : Job α) (handle : Fault → Job α) : Job α :=
  tryCatch body fun fault => if expected fault.kind then handle fault else throw fault

def print [Screen] (p : Print) : Job Unit := do
  lift (Screen.takes p.markup)
  modify fun s => { s with printed := s.printed ++ [p] }

def say [Screen] (t : Text) : Job Unit := print (.text t)

def warn [Screen] (t : Text) : Job Unit := do
  lift (Screen.takes [t])
  modify fun s => { s with warnings := s.warnings ++ [t] }

def writeLine (t : Text) : Job Unit := modify fun s => { s with output := s.output ++ t ++ "\n" }

def today : Job Text := do return (← get).today

def ask [Screen] (question : Text) (default : Option Json) (choices : Option (List Text)) : Job Json := do
  print (.ask question default choices)
  match (← get).answers with
  | [] => throw .noAnswer
  | .null :: rest =>
      modify fun s => { s with answers := rest }
      return default.getD .null
  | answer :: rest =>
      modify fun s => { s with answers := rest }
      return answer

def changeStore (change : Store → Except StoreFault Store) : Job Unit := do
  match change (← get).store with
  | .ok store => modify fun s => { s with store }
  | .error fault => throw (.store fault)

def readBytes (path : Text) : Job Bytes := do
  match (← get).store.read path with
  | .ok bytes => return bytes
  | .error fault => throw (.store fault)

def decoded (bytes : Bytes) : Except Utf8.Flaw Text :=
  match Utf8.decode bytes with
  | some t => .ok (Text.unifyLineEnds t)
  | none => .error (Utf8.flaw bytes)

def readText (path : Text) : Job Text := do
  match decoded (← readBytes path) with
  | .ok t => return t
  | .error flaw => throw (.notUtf8 flaw)

/-- The lines of a file. Bytes after the last whole code point are told of by themselves. -/
def readLines (path : Text) : Job (List Text) := do
  match decoded (← readBytes path) with
  | .ok t => return Text.fileLines t
  | .error flaw => throw (.notUtf8 flaw.withinLines)

def writeBytes (path : Text) (bytes : Bytes) : Job Unit := changeStore (·.write path bytes)

def appendText (path : Text) (t : Text) : Job Unit :=
  match Utf8.encode t with
  | some bytes => changeStore (·.append path bytes)
  | none => do
      changeStore (·.append path [])
      throw .unencodable

def writeText (path : Text) (t : Text) : Job Unit := do
  writeBytes path []
  appendText path t

def exists? (path : Text) : Job Bool := do return (← get).store.exists? path

def find? (path : Text) : Job Bool := do
  match (← get).store.find? path with
  | .ok found => return found
  | .error fault => throw (.store fault)

def pathText : Json → Job Text
  | .text path => return path
  | value => throw (.noPath value)

def makeFolders (path : Text) : Job Unit := changeStore (·.makeFolders path)

def makePath (path : Path) : Job Unit := changeStore (·.makePath path)

end Job

end TapeMachine
