import TapeMachine.Store.Path
import TapeMachine.Text.Quoted

set_option autoImplicit false

namespace TapeMachine

inductive StoreFault where
  | notFound (path : Text)
  | present (path : Text)
  | notFolder (path : Text)
  | isFolder (path : Text)
  | longName (path : Text)
  | nullInPath
  | noForm (path : Text)
deriving DecidableEq

namespace StoreFault

def formless (path : Text) : Nat × Text :=
  let hasForm (c : CodePoint) : Bool := !c.isSurrogate || c.isByteSurrogate
  ((path.takeWhile hasForm).length, (path.dropWhile hasForm).takeWhile CodePoint.isSurrogate)

def noFormMessage (path : Text) : Text :=
  let (start, run) := formless path
  let place : Text := match run with
    | [c] => "character '\\u" ++ hexFixed 4 c.val ++ "' in position " ++ numeral start
    | _ => "characters in position " ++ numeral start ++ "-" ++ numeral (start + run.length - 1)
  "'utf-8' codec can't encode " ++ place ++ ": surrogates not allowed"

def message : StoreFault → Text
  | .notFound path => "[Errno 2] No such file or directory: " ++ path.quoted
  | .present path => "[Errno 17] File exists: " ++ path.quoted
  | .notFolder path => "[Errno 20] Not a directory: " ++ path.quoted
  | .isFolder path => "[Errno 21] Is a directory: " ++ path.quoted
  | .longName path => "[Errno 36] File name too long: " ++ path.quoted
  | .nullInPath => "embedded null byte"
  | .noForm path => noFormMessage path

def isSystem : StoreFault → Bool
  | .nullInPath => false
  | .noForm _ => false
  | _ => true

end StoreFault

abbrev Place := List Text

structure Store where
  files : List (Place × Bytes) := []
  folders : List Place := []
deriving DecidableEq

inductive Node where
  | file (bytes : Bytes)
  | folder
  | absent
deriving DecidableEq

namespace Store

def isAbove (place : Place) : Bool := place.all (· = parentFolder)

def rootPlace : Place := [[slash]]

def commonFolders : List Place :=
  (["bin", "dev", "etc", "home", "lib", "opt", "proc", "root", "run", "sbin", "sys", "tmp", "usr",
    "var"] : List Text).map
    fun name => rootPlace ++ [name]

def nullDevice : Place := [[slash], "dev", "null"]

def node (s : Store) (place : Place) : Node :=
  if isAbove place ∨ place = rootPlace ∨ place ∈ commonFolders ∨ place ∈ s.folders then .folder
  else match s.files.find? fun f => f.1 = place with
    | some (_, bytes) => .file bytes
    | none => if place = nullDevice then .file [] else .absent

def follow (here : Place) (name : Text) : Place :=
  if name = thisFolder ∨ (name = parentFolder ∧ here = rootPlace) then here
  else if name ≠ parentFolder ∨ isAbove here then here ++ [name]
  else here.dropLast

def walk (s : Store) (path : Text) (here : Place) : List Text → Except StoreFault Place
  | [] => .ok here
  | name :: rest =>
      let place := follow here name
      if longestName < nameSize name then .error (.longName path)
      else if rest = [] then .ok place
      else match s.node place with
        | .folder => walk s path place rest
        | .file _ => .error (.notFolder path)
        | .absent => .error (.notFound path)

def locate (s : Store) (path : Text) : Except StoreFault Place :=
  if (StoreFault.formless path).2 ≠ [] then .error (.noForm path)
  else if path.any fun c => c.val = 0 then .error .nullInPath
  else if longestPath < nameSize path then .error (.longName path)
  else if path = [] then .error (.notFound path)
  else s.walk path (if isAbsolute path then rootPlace else []) (pathPieces path)

def namesFolder (path : Text) : Bool := lastPiece path = []

def read (s : Store) (path : Text) : Except StoreFault Bytes := do
  let place ← s.locate path
  match s.node place with
  | .file bytes => if namesFolder path then throw (.notFolder path) else return bytes
  | .folder => throw (.isFolder path)
  | .absent => throw (.notFound path)

def exists? (s : Store) (path : Text) : Bool :=
  match s.locate path with
  | .error _ => false
  | .ok place => match s.node place with
    | .file _ => !namesFolder path
    | .folder => true
    | .absent => false

def find? (s : Store) (path : Text) : Except StoreFault Bool :=
  match s.locate path with
  | .error (.longName path) => .error (.longName path)
  | _ => .ok (s.exists? path)

def isFolder (s : Store) (path : Text) : Bool :=
  match s.locate path with
  | .error _ => false
  | .ok place => s.node place = .folder

def placeFile (place : Place) (bytes : Bytes) : List (Place × Bytes) → List (Place × Bytes)
  | [] => [(place, bytes)]
  | (p, b) :: rest => if p = place then (p, bytes) :: rest else (p, b) :: placeFile place bytes rest

def setFile (s : Store) (place : Place) (bytes : Bytes) : Store := { s with files := placeFile place bytes s.files }

def update (s : Store) (path : Text) (change : Bytes → Bytes) : Except StoreFault Store := do
  let place ← s.locate path
  match s.node place with
  | .file bytes => if namesFolder path then throw (.isFolder path) else return s.setFile place (change bytes)
  | .folder => throw (.isFolder path)
  | .absent => if namesFolder path then throw (.isFolder path) else return s.setFile place (change [])

def write (s : Store) (path : Text) (bytes : Bytes) : Except StoreFault Store := s.update path fun _ => bytes

def append (s : Store) (path : Text) (bytes : Bytes) : Except StoreFault Store := s.update path (· ++ bytes)

def makeFolder (s : Store) (path : Text) : Except StoreFault Store := do
  let place ← s.locate path
  match s.node place with
  | .absent => return { s with folders := s.folders ++ [place] }
  | _ => throw (.present path)

def makeFolderUnless (s : Store) (path : Text) : Except StoreFault Store :=
  match s.makeFolder path with
  | .ok s => .ok s
  | .error fault => if fault.isSystem && s.isFolder path then .ok s else .error fault

def makeFoldersWithin : Nat → Store → Text → Except StoreFault Store
  | 0, s, path => s.makeFolderUnless path
  | fuel + 1, s, path =>
      let path' := if lastPiece path = [] then folderOf path else path
      let head := folderOf path'
      let tail := lastPiece path'
      if head ≠ [] ∧ tail ≠ [] ∧ s.exists? head = false then
        let next (s : Store) : Except StoreFault Store := if tail = thisFolder then .ok s else s.makeFolderUnless path
        match makeFoldersWithin fuel s head with
        | .error (.present _) => next s
        | .error fault => .error fault
        | .ok s => next s
      else s.makeFolderUnless path

def makeFolders (s : Store) (path : Text) : Except StoreFault Store := makeFoldersWithin path.length s path

def makePathWithin : Nat → Store → Path → Except StoreFault Store
  | 0, s, p => s.makeFolderUnless p.toText
  | fuel + 1, s, p =>
      match s.makeFolder p.toText with
      | .ok s => .ok s
      | .error (.notFound path) =>
          if p.parent = p then .error (.notFound path)
          else do
            let s ← makePathWithin fuel s p.parent
            s.makeFolderUnless p.toText
      | .error fault => if fault.isSystem && s.isFolder p.toText then .ok s else .error fault

def makePath (s : Store) (p : Path) : Except StoreFault Store := makePathWithin p.names.length s p

def namesEndingWith (s : Store) (place : Place) (suffix : Text) : List Text :=
  let places := s.files.map Prod.fst ++ s.folders
  Text.sorted ((places.filter fun p => p ≠ [] ∧ p.dropLast = place).filterMap List.getLast? |>.filter fun name =>
    name.endsWith suffix)

def isBelow (place : Place) : Bool := place.head? ≠ some parentFolder && place.take 1 ≠ rootPlace

def changedFiles (s old : Store) : List (Text × Bytes) :=
  (s.files.filter fun f => isBelow f.1 ∧ old.node f.1 ≠ .file f.2).map fun (place, bytes) =>
    (Text.join "/" place, bytes)

def newFolders (s old : Store) : List Text :=
  Text.sorted ((s.folders.filter fun place => isBelow place ∧ place ∉ old.folders).map (Text.join "/"))

def addFile (s : Store) (path : Text) (bytes : Bytes) : Store :=
  let place := pathNames path
  let above := (List.range place.length).tail.map fun n => place.take n
  { files := placeFile place bytes s.files, folders := s.folders ++ above.filter fun p => p ∉ s.folders }

end Store

end TapeMachine
