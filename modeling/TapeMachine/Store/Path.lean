import TapeMachine.Text.CodePoint

set_option autoImplicit false

namespace TapeMachine

def slash : CodePoint := '/'

def thisFolder : Text := "."

def parentFolder : Text := ".."

def splitSlashes : Text → List Text
  | [] => [[]]
  | c :: t =>
      if c = slash then [] :: splitSlashes t
      else
        match splitSlashes t with
        | [] => [[c]]
        | l :: ls => (c :: l) :: ls

def pathPieces (t : Text) : List Text := (splitSlashes t).filter (· ≠ [])

def pathNames (t : Text) : List Text := (pathPieces t).filter (· ≠ thisFolder)

def pointSize (c : CodePoint) : Nat :=
  if c.val < 0x80 ∨ c.isByteSurrogate then 1 else if c.val < 0x800 then 2 else if c.val < 0x10000 then 3 else 4

def nameSize (t : Text) : Nat := t.foldl (fun n c => n + pointSize c) 0

def longestName : Nat := 255

def longestPath : Nat := 4095

def isAbsolute (t : Text) : Bool := t.head? = some slash

def joinPath (folder name : Text) : Text :=
  if isAbsolute name then name
  else if folder = [] ∨ folder.getLast? = some slash then folder ++ name
  else folder ++ [slash] ++ name

def lastPiece (t : Text) : Text := (t.reverse.takeWhile (· ≠ slash)).reverse

def folderOf (t : Text) : Text :=
  let head := (t.reverse.dropWhile (· ≠ slash)).reverse
  let cut := (head.reverse.dropWhile (· = slash)).reverse
  if cut = [] then head else cut

def rootOf (t : Text) : Text :=
  match t.takeWhile (· = slash) with
  | [] => []
  | [a, b] => [a, b]
  | a :: _ => [a]

structure Path where
  root : Text := []
  names : List Text
deriving DecidableEq

namespace Path

def ofText (t : Text) : Path := ⟨rootOf t, pathNames t⟩

def toText (p : Path) : Text :=
  if p.root = [] ∧ p.names = [] then thisFolder else p.root ++ Text.join "/" p.names

def child (p : Path) (t : Text) : Path :=
  let q := ofText t
  if q.root ≠ [] then q else { p with names := p.names ++ q.names }

def parent (p : Path) : Path := { p with names := p.names.dropLast }

def name (p : Path) : Text := p.names.getLast?.getD []

def stemLength (name : Text) : Nat :=
  let suffix := name.reverse.takeWhile (· ≠ CodePoint.ofChar '.')
  let before := name.length - suffix.length
  if before ≤ 1 ∨ suffix = [] then name.length else before - 1

def stem (p : Path) : Text := p.name.take (stemLength p.name)

def suffix (p : Path) : Text := p.name.drop (stemLength p.name)

def withSuffix (p : Path) (suffix : Text) : Path := { p with names := p.names.dropLast ++ [p.stem ++ suffix] }

end Path

end TapeMachine
