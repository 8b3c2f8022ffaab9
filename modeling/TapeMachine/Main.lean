import Std.Time.DateTime
import TapeMachine.Command.App
import TapeMachine.StandIn
import TapeMachine.View.Plain

set_option autoImplicit false

open TapeMachine
open scoped TapeMachine.StandIn

namespace Main

def stringOf (t : Text) : String := String.ofList (t.map fun c => Char.ofNat c.val)

partial def addEntry (above : Place) (s : Store) (entry : IO.FS.DirEntry) : IO Store := do
  let place := above ++ [Text.ofString entry.fileName]
  if ← entry.path.isDir then
    (← entry.path.readDir).foldlM (addEntry place) { s with folders := s.folders ++ [place] }
  else return s.setFile place (← IO.FS.readBinFile entry.path).toList

def readStore : IO Store := do
  (← (← IO.currentDir).readDir).foldlM (addEntry []) {}

def writeChanges (before after : Store) : IO Unit := do
  for folder in after.newFolders before do
    IO.FS.createDirAll (stringOf folder)
  for (path, bytes) in after.changedFiles before do
    IO.FS.writeBinFile (stringOf path) ⟨bytes.toArray⟩

def padded (width n : Nat) : String :=
  let digits := toString n
  String.ofList (List.replicate (width - digits.length) '0') ++ digits

def today : IO String := do
  let d := Std.Time.PlainDate.ofEpochDay (← Std.Time.Timestamp.now).toDaysSinceUnixEpoch
  return padded 4 d.year.toInt.toNat ++ "-" ++ padded 2 d.month.val.toNat ++ "-" ++ padded 2 d.day.val.toNat

partial def readLines (input : IO.FS.Stream) : IO (List String) := do
  let line ← input.getLine
  if line.isEmpty then return []
  return line :: (← readLines input)

def answerOf (line : String) : Json :=
  let t := Text.trim (Text.ofString line)
  if t = [] then .null
  else match Json.read t with
    | .ok value => value
    | .error _ => .text t

def display (s : Session) : IO Unit := do
  IO.print (stringOf s.output)
  for warning in s.warnings do
    IO.println (stringOf warning)
  for p in s.printed do
    for line in p.plainLines do
      IO.println (stringOf line)

def run (name : String) (pieces : List String) (command : List Text → Command) : IO UInt32 := do
  let store ← readStore
  let lines ← if name = "app" ∧ pieces.isEmpty then readLines (← IO.getStdin) else pure []
  let before : Session := { store, today := Text.ofString (← today), answers := lines.map answerOf }
  let (result, after) := (command (pieces.map Text.ofString)).runIn before
  writeChanges before.store after.store
  display after
  match result with
  | .ok code => return code.toUInt32
  | .error fault =>
      IO.eprintln (stringOf fault.message)
      return 1

end Main

def main (args : List String) : IO UInt32 := do
  match args with
  | [] => IO.eprintln "a command is needed"; return 2
  | name :: pieces =>
      match Command.all.find? fun c => c.1 = Text.ofString name with
      | some (_, command) => Main.run name pieces command
      | none => IO.eprintln ("unknown command: " ++ name); return 2
