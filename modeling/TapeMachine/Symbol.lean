import TapeMachine.Json.Basic

set_option autoImplicit false

namespace TapeMachine

inductive Symbol where
  | text (value : Text)
  | int (value : Int)
  | null
deriving DecidableEq

namespace Symbol

def char (c : CodePoint) : Symbol := .text [c]

def toJson : Symbol → Json
  | .text t => .text t
  | .int i => .int i
  | .null => .null

def quoted (s : Symbol) : Text := s.toJson.quoted

def plain (s : Symbol) : Text := s.toJson.plain

theorem char_injective {a b : CodePoint} (same : char a = char b) : a = b := by
  simpa [char] using same

end Symbol

def firstSeen {α : Type} [DecidableEq α] : List α → List α
  | [] => []
  | a :: rest => a :: (firstSeen rest).filter (· ≠ a)

@[simp] theorem mem_first_seen {α : Type} [DecidableEq α] (x : α) (xs : List α) : x ∈ firstSeen xs ↔ x ∈ xs := by
  induction xs with
  | nil => simp [firstSeen]
  | cons a rest ih =>
      by_cases same : x = a <;> simp [firstSeen, same, ih]

theorem first_seen_nodup {α : Type} [DecidableEq α] (xs : List α) : (firstSeen xs).Nodup := by
  induction xs with
  | nil => simp [firstSeen]
  | cons a rest ih =>
      simp only [firstSeen, List.nodup_cons, List.mem_filter]
      exact ⟨by simp, ih.filter _⟩

@[simp] theorem first_seen_eq_nil_iff {α : Type} [DecidableEq α] (xs : List α) : firstSeen xs = [] ↔ xs = [] := by
  cases xs <;> simp [firstSeen]

inductive SymbolSource where
  | word (text : Text)
  | single (symbol : Symbol)
  | listed (symbols : List Symbol)

namespace SymbolSource

def all : SymbolSource → List Symbol
  | .word t => t.map Symbol.char
  | .single s => [s]
  | .listed ss => ss

def symbols (source : SymbolSource) : List Symbol := firstSeen source.all

end SymbolSource

end TapeMachine
