import Std.Data.TreeMap
import TapeMachine.Symbol

set_option autoImplicit false

namespace TapeMachine

structure Tape where
  blank : Symbol
  cells : Std.TreeMap Int Symbol := ∅

namespace Tape

def read (t : Tape) (address : Int) : Symbol := (t.cells[address]?).getD t.blank

def write (t : Tape) (address : Int) (symbol : Symbol) : Tape :=
  if symbol = t.blank then { t with cells := t.cells.erase address }
  else { t with cells := t.cells.insert address symbol }

def used (t : Tape) : Nat := t.cells.size

def bounds (t : Tape) : Option (Int × Int) :=
  let marked := t.cells.keys
  match marked.head?, marked.getLast? with
  | some low, some high => some (low, high)
  | _, _ => none

def addresses (low high : Int) : List Int := (List.range (high - low + 1).toNat).map fun (i : Nat) => low + i

def denseAddresses (t : Tape) : List Int :=
  match t.bounds with
  | some (low, high) => addresses low high
  | none => []

def dense (t : Tape) : List Symbol := t.denseAddresses.map t.read

def windowAddresses (center radius : Int) : List Int := addresses (center - radius) (center + radius)

def window (t : Tape) (center radius : Int) : List Symbol := (windowAddresses center radius).map t.read

def load (t : Tape) (start : Int) : List Symbol → Tape
  | [] => t
  | s :: rest => load (t.write start s) (start + 1) rest

def clear (t : Tape) : Tape := { t with cells := ∅ }

def describe (t : Tape) : Text :=
  "TapeMemory(blank=" ++ t.blank.quoted ++ ", used=" ++ numeral t.used ++ ")"

theorem read_write (t : Tape) (address query : Int) (symbol : Symbol) :
    (t.write address symbol).read query = if query = address then symbol else t.read query := by
  unfold write
  split
  · rename_i same
    by_cases hit : query = address
    · subst hit
      simp [read, same]
    · simp [read, hit, Std.TreeMap.getElem?_erase, Ne.symm hit]
  · by_cases hit : query = address
    · subst hit
      simp [read]
    · simp [read, hit, Std.TreeMap.getElem?_insert, Ne.symm hit]

@[simp] theorem write_blank (t : Tape) (address : Int) (symbol : Symbol) :
    (t.write address symbol).blank = t.blank := by
  unfold write
  split <;> rfl

@[simp] theorem load_blank (t : Tape) (start : Int) (symbols : List Symbol) :
    (t.load start symbols).blank = t.blank := by
  induction symbols generalizing t start with
  | nil => rfl
  | cons s rest ih => rw [load, ih, write_blank]

@[simp] theorem read_clear (t : Tape) (address : Int) : t.clear.read address = t.blank := by
  simp [clear, read]

end Tape

end TapeMachine
