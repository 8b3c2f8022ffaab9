import Mathlib.Order.Bounds.Defs
import TapeMachine.Proofs.TotalTape

set_option autoImplicit false

namespace TapeMachine

namespace Tape

def Sparse (t : Tape) : Prop := ∀ address : Int, t.cells[address]? ≠ some t.blank

theorem cells_write (t : Tape) (address query : Int) (symbol : Symbol) :
    (t.write address symbol).cells[query]? =
      if query = address then (if symbol = t.blank then none else some symbol) else t.cells[query]? := by
  by_cases empty : symbol = t.blank
  · by_cases here : query = address
    · simp [write, empty, here]
    · simp [write, empty, here, Std.TreeMap.getElem?_erase, Ne.symm here]
  · by_cases here : query = address
    · simp [write, empty, here]
    · simp [write, empty, here, Std.TreeMap.getElem?_insert, Ne.symm here]

theorem write_sparse (t : Tape) (address : Int) (symbol : Symbol) (sparse : t.Sparse) :
    (t.write address symbol).Sparse := by
  intro query
  rw [cells_write, write_blank]
  by_cases here : query = address
  · by_cases empty : symbol = t.blank <;> simp [here, empty]
  · simpa only [if_neg here] using sparse query

theorem clear_sparse (t : Tape) : t.clear.Sparse := by
  intro query
  simp [clear]

theorem load_sparse (t : Tape) (start : Int) (word : List Symbol) (sparse : t.Sparse) : (t.load start word).Sparse := by
  induction word generalizing t start with
  | nil => exact sparse
  | cons symbol rest ih => exact ih (t.write start symbol) (start + 1) (write_sparse t start symbol sparse)

theorem cell_settled (blank : Symbol) (a b : Option Symbol) (keptA : a ≠ some blank) (keptB : b ≠ some blank)
    (alike : a.getD blank = b.getD blank) : a = b := by
  cases a with
  | none =>
      cases b with
      | none => rfl
      | some y => exact absurd (congrArg some alike.symm) keptB
  | some x =>
      cases b with
      | none => exact absurd (congrArg some alike) keptA
      | some y => exact congrArg some alike

theorem bounds_cases (t : Tape) :
    (t.bounds = none ∧ ∀ address, address ∉ t.cells) ∨
      ∃ low high, t.bounds = some (low, high) ∧ IsLeast {address | address ∈ t.cells} low ∧
        IsGreatest {address | address ∈ t.cells} high := by
  rw [bounds, ← Std.TreeMap.minKey?_eq_head?_keys, ← Std.TreeMap.maxKey?_eq_getLast?_keys]
  cases lowest : t.cells.minKey? with
  | none => exact .inl ⟨rfl, Std.TreeMap.isEmpty_iff_forall_not_mem.mp (Std.TreeMap.minKey?_eq_none_iff.mp lowest)⟩
  | some low =>
      obtain ⟨keptLow, below⟩ := Std.TreeMap.minKey?_eq_some_iff_mem_and_forall.mp lowest
      cases highest : t.cells.maxKey? with
      | none => exact absurd keptLow (Std.TreeMap.not_mem_of_isEmpty (Std.TreeMap.maxKey?_eq_none_iff.mp highest))
      | some high =>
          obtain ⟨keptHigh, above⟩ := Std.TreeMap.maxKey?_eq_some_iff_mem_and_forall.mp highest
          refine .inr ⟨low, high, rfl, ⟨keptLow, ?_⟩, ⟨keptHigh, ?_⟩⟩
          · intro address kept
            exact Int.isLE_compare.mp (below address kept)
          · intro address kept
            exact Int.isLE_compare.mp (above address kept)

theorem read_kept (t : Tape) (address : Int) (sparse : t.Sparse) (kept : address ∈ t.cells) :
    t.read address ≠ t.blank := by
  obtain ⟨symbol, found⟩ := Option.isSome_iff_exists.mp (Std.TreeMap.mem_iff_isSome_getElem?.mp kept)
  rw [read, found, Option.getD_some]
  exact fun same => sparse address (same ▸ found)

theorem addresses_ends (low high : Int) (ordered : low ≤ high) :
    (addresses low high).head? = some low ∧ (addresses low high).getLast? = some high := by
  have long : ∃ more : Nat, (high - low + 1).toNat = more + 1 ∧ low + more = high :=
    ⟨(high - low).toNat, by omega, by omega⟩
  obtain ⟨more, long, reach⟩ := long
  rw [addresses, long]
  refine ⟨?_, ?_⟩
  · simp [List.range_succ_eq_map]
  · simp [List.range_succ, reach]

theorem dense_ends (t : Tape) (sparse : t.Sparse) :
    t.dense = [] ∨ ∃ first last, t.dense.head? = some first ∧ t.dense.getLast? = some last ∧
      first ≠ t.blank ∧ last ≠ t.blank := by
  rcases bounds_cases t with ⟨empty, _⟩ | ⟨low, high, bounded, least, greatest⟩
  · exact .inl (by rw [dense, denseAddresses, empty]; rfl)
  · obtain ⟨first, last⟩ := addresses_ends low high (least.2 greatest.1)
    refine .inr ⟨t.read low, t.read high, ?_, ?_, read_kept t low sparse least.1, read_kept t high sparse greatest.1⟩
    · rw [dense, denseAddresses, bounded, List.head?_map, first, Option.map_some]
    · rw [dense, denseAddresses, bounded, List.getLast?_map, last, Option.map_some]

end Tape

namespace Machine

theorem next_sparse (c : Configuration) (m : Machine) (sparse : m.tape.Sparse) : (m.next c).tape.Sparse := by
  rw [next]
  split
  · split
    · exact Tape.write_sparse m.tape m.head _ sparse
    · exact sparse
  · exact sparse

@[simp] theorem next_blank (c : Configuration) (m : Machine) : (m.next c).tape.blank = m.tape.blank := by
  rw [next]
  split
  · split
    · exact Tape.write_blank m.tape m.head _
    · rfl
  · rfl

theorem iterate_sparse (c : Configuration) (m : Machine) (n : Nat) (sparse : m.tape.Sparse) :
    ((next c)^[n] m).tape.Sparse := by
  induction n with
  | zero => exact sparse
  | succ n ih =>
      rw [Function.iterate_succ_apply']
      exact next_sparse c _ ih

@[simp] theorem iterate_blank (c : Configuration) (m : Machine) (n : Nat) :
    ((next c)^[n] m).tape.blank = m.tape.blank := by
  induction n with
  | zero => rfl
  | succ n ih => rw [Function.iterate_succ_apply', next_blank, ih]

end Machine

end TapeMachine
