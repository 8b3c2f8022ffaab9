import TapeMachine.Decimal.Shortest
import TapeMachine.Text.Quoted

set_option autoImplicit false

namespace TapeMachine

inductive Json where
  | null
  | bool (value : Bool)
  | int (value : Int)
  | float (value : Binary64)
  | text (value : Text)
  | list (items : List Json)
  | object (fields : List (Text × Json))

abbrev Fields := List (Text × Json)

namespace Fields

def find? (key : Text) : Fields → Option Json
  | [] => none
  | (k, v) :: rest => if k = key then some v else find? key rest

def insert (key : Text) (value : Json) : Fields → Fields
  | [] => [(key, value)]
  | (k, v) :: rest => if k = key then (k, value) :: rest else (k, v) :: insert key value rest

def insertAll (fresh : Fields) (fields : Fields) : Fields :=
  fresh.foldl (fun acc (k, v) => insert k v acc) fields

def erase (key : Text) (fields : Fields) : Fields := fields.filter fun field => field.1 ≠ key

end Fields

namespace Json

mutual
def quoted : Json → Text
  | .null => "None"
  | .bool true => "True"
  | .bool false => "False"
  | .int i => signedNumeral i
  | .float d => d.text
  | .text t => t.quoted
  | .list items => "[" ++ Text.join ", " (quotedItems items) ++ "]"
  | .object fields => "\x7b" ++ Text.join ", " (quotedFields fields) ++ "\x7d"

def quotedItems : List Json → List Text
  | [] => []
  | item :: items => quoted item :: quotedItems items

def quotedFields : List (Text × Json) → List Text
  | [] => []
  | (key, value) :: fields => (key.quoted ++ ": " ++ quoted value) :: quotedFields fields
end

def plain : Json → Text
  | .text t => t
  | value => value.quoted

def asInt? : Json → Option Int
  | .int i => some i
  | .bool b => some (if b then 1 else 0)
  | .float d => d.toInt?
  | _ => none

def typeName : Json → Text
  | .null => "NoneType"
  | .bool _ => "bool"
  | .int _ => "int"
  | .float _ => "float"
  | .text _ => "str"
  | .list _ => "list"
  | .object _ => "dict"

def isKey : Json → Bool
  | .list _ => false
  | .object _ => false
  | _ => true

def isNotNumber : Json → Bool
  | .float d => d.view = .nan
  | _ => false

def truth : Json → Bool
  | .null => false
  | .bool b => b
  | .int i => i ≠ 0
  | .float d => d.toInt? ≠ some 0
  | .text t => t ≠ []
  | .list items => !items.isEmpty
  | .object fields => !fields.isEmpty

end Json

end TapeMachine
