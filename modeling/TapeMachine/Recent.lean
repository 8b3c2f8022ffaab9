set_option autoImplicit false

namespace TapeMachine

structure Recent (α : Type) (limit : Option Nat) where
  older : List α := []
  newer : List α := []
  count : Nat := 0
  counted : count = older.length + newer.length := by rfl
  within : ∀ n, limit = some n → count ≤ n := by exact fun n _ => Nat.zero_le n

namespace Recent

variable {α : Type} {limit : Option Nat}

def items (r : Recent α limit) : List α := r.older ++ r.newer.reverse

def push (r : Recent α limit) (a : α) : Recent α limit :=
  if full : limit = some r.count then
    match stored : r.older with
    | _ :: rest =>
        { older := rest
          newer := a :: r.newer
          count := r.count
          counted := by simp [r.counted, stored, Nat.add_comm, Nat.add_left_comm]
          within := r.within }
    | [] =>
        { older := (a :: r.newer).reverse.tail
          count := r.count
          counted := by simp [r.counted, stored]
          within := r.within }
  else
    { older := r.older
      newer := a :: r.newer
      count := r.count + 1
      counted := by simp [r.counted, Nat.add_assoc]
      within := fun n same => Nat.lt_of_le_of_ne (r.within n same) fun reached => full (reached ▸ same) }

def last (limit : Option Nat) (xs : List α) : List α :=
  match limit with
  | none => xs
  | some n => xs.drop (xs.length - n)

@[simp] theorem items_length (r : Recent α limit) : r.items.length = r.count := by
  simp [items, r.counted]

theorem items_push (r : Recent α limit) (a : α) :
    (r.push a).items = if limit = some r.count then (r.items ++ [a]).tail else r.items ++ [a] := by
  rw [push]
  split
  · split
    · rename_i old rest stored
      simp [items, stored]
    · rename_i stored
      simp [items, stored]
  · simp [items]

end Recent

end TapeMachine
