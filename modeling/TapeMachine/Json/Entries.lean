import TapeMachine.Json.Printer
import TapeMachine.Json.Equality

set_option autoImplicit false

namespace TapeMachine

namespace Json

def sameKey (a b : Json) : Bool :=
  match a.asInt?, b.asInt? with
  | some i, some j => i = j
  | none, none => a = b && !a.isNotNumber
  | _, _ => false

def keyText : Json → Text
  | .text t => t
  | key => key.compact

end Json

abbrev Entries := List (Json × Json)

namespace Entries

def insertBy (same : Json → Json → Bool) (key value : Json) : Entries → Entries
  | [] => [(key, value)]
  | (k, v) :: rest => if same k key then (k, value) :: rest else (k, v) :: insertBy same key value rest

def find? (key : Json) : Entries → Option Json
  | [] => none
  | (k, v) :: rest => if k.sameKey key then some v else find? key rest

def insert (key value : Json) (entries : Entries) : Entries := insertBy Json.sameKey key value entries

def insertAll (fresh : Entries) (entries : Entries) : Entries :=
  fresh.foldl (fun acc (k, v) => insert k v acc) entries

def gather (pairs : List (Json × Json)) : Entries :=
  pairs.foldl (fun acc (k, v) => insertBy (fun a b => a.sameKey b || (a.isNotNumber && b.isNotNumber)) k v acc) []

def erase (key : Json) (entries : Entries) : Entries := entries.filter fun entry => !entry.1.sameKey key

def ofFields (fields : Fields) : Entries := fields.map fun (k, v) => (.text k, v)

def toObject (entries : Entries) : Json := .object (entries.map fun (k, v) => (k.keyText, v))

end Entries

end TapeMachine
