set_option autoImplicit false

namespace TapeMachine

def batchesWithin {α : Type} (size : Nat) : Nat → List α → List (List α)
  | 0, _ => []
  | _ + 1, [] => []
  | fuel + 1, a :: rest => (a :: rest.take size) :: batchesWithin size fuel (rest.drop size)

def batches {α : Type} (size : Nat) (items : List α) : List (List α) :=
  match size with
  | 0 => []
  | n + 1 => batchesWithin n items.length items

theorem batches_within_flatten {α : Type} (size : Nat) (fuel : Nat) (items : List α) (enough : items.length ≤ fuel) :
    (batchesWithin size fuel items).flatten = items := by
  induction fuel generalizing items with
  | zero =>
      cases items with
      | nil => rfl
      | cons a rest => simp at enough
  | succ fuel ih =>
      cases items with
      | nil => rfl
      | cons a rest =>
          have shorter : (rest.drop size).length ≤ fuel := by
            simp only [List.length_cons, List.length_drop] at *
            omega
          simp [batchesWithin, ih _ shorter]

theorem batches_flatten {α : Type} (size : Nat) (items : List α) (some_size : 0 < size) :
    (batches size items).flatten = items := by
  cases size with
  | zero => simp at some_size
  | succ n => exact batches_within_flatten n _ items (Nat.le_refl _)

theorem batches_nil_iff {α : Type} (size : Nat) (items : List α) (positive : 0 < size) :
    batches size items = [] ↔ items = [] := by
  constructor
  · intro nothing
    rw [← batches_flatten size items positive, nothing]
    rfl
  · rintro rfl
    cases size <;> rfl

theorem mem_batches_within {α : Type} (size fuel : Nat) (items batch : List α)
    (cut : batch ∈ batchesWithin size fuel items) :
    batch ⊆ items := by
  induction fuel generalizing items with
  | zero => cases cut
  | succ fuel ih =>
      cases items with
      | nil => cases cut
      | cons a rest =>
          rcases List.mem_cons.mp cut with rfl | later
          · exact List.cons_subset_cons a (List.take_subset size rest)
          · exact fun b mem => List.mem_cons_of_mem a (List.drop_subset size rest (ih (rest.drop size) later mem))

theorem mem_batches {α : Type} (size : Nat) (items batch : List α)
    (cut : batch ∈ batches size items) : batch ⊆ items := by
  cases size with
  | zero => cases cut
  | succ size => exact mem_batches_within size items.length items batch cut

end TapeMachine
