import TapeMachine.Pool.Summary
import TapeMachine.View.Screen

set_option autoImplicit false

namespace TapeMachine.StandIn

/-- A screen that takes every text and shows it as it is. -/
scoped instance screen : Screen where
  refuses _ := none
  shows t := t

theorem screen_lawful : Screen.Lawful where
  tame _ _ := rfl
  counted _ _ _ _ _ _ _ := rfl
  shown _ _ := rfl

/-- A screen that refuses a single text. -/
@[reducible] def refusing (t message : Text) : Screen where
  refuses u := if u = t then some message else none
  shows u := u

theorem refusing_lawful (t message : Text) (wild : ¬ Screen.Tame t) (wordy : ∀ c ∈ t, c.isDigit = false) :
    @Screen.Lawful (refusing t message) := by
  refine @Screen.Lawful.mk (refusing t message) ?_ ?_ fun _ _ => rfl
  · intro u tame
    refine if_neg fun same => wild ?_
    rwa [← same]
  intro lead between after n m _ _
  refine if_neg fun same => ?_
  obtain ⟨c, mem, digit⟩ := grouped_numeral_digit m
  have plain := wordy c (by rw [← same]; simp [mem])
  rw [digit] at plain
  cases plain

/-- A screen that shows no control codes. -/
@[reducible] def muffled : Screen where
  refuses _ := none
  shows t := t.filter fun c => !c.isControl

theorem muffled_lawful : @Screen.Lawful muffled := by
  refine @Screen.Lawful.mk muffled (fun _ _ => rfl) (fun _ _ _ _ _ _ _ => rfl) fun t visible => ?_
  exact List.filter_eq_self.mpr fun c mem => by simp [visible c mem]

scoped instance memory : Memory where
  holds _ := true

def wholeNumber : Json → Except ArrayFault Int
  | .int i => if Quantity.isSized i then .ok i else .error ⟨.overflow, "Python int too large to convert to C long"⟩
  | value => .error ⟨.badType,
      "int() argument must be a string, a bytes-like object or a real number, not '" ++ value.typeName ++ "'"⟩

def middle (is : List Int) : List Int :=
  let sorted := is.mergeSort
  if is.length % 2 = 1 then (sorted.drop (is.length / 2)).take 1 else (sorted.drop (is.length / 2 - 1)).take 2

def exactMean (is : List Int) : Binary64 := (Binary64.ofInt (is.foldr (· + ·) 0)).divNat is.length

/-- Arrays of whole numbers that are added without rounding. -/
scoped instance arrays : Arrays where
  whole := List.mapM wholeNumber
  mean := exactMean
  median is := exactMean (middle is)

theorem arrays_lawful : Arrays.Lawful where
  sized is sized := by
    induction is with
    | nil => rfl
    | cons i rest ih =>
        obtain ⟨first, others⟩ := List.forall_mem_cons.mp sized
        have later := ih others
        simp only [Arrays.whole, List.map_cons, List.mapM_cons] at later ⊢
        rw [later, wholeNumber, if_pos first]
        rfl
  large is large := by
    induction is with
    | nil => simp at large
    | cons i rest ih =>
        simp only [Arrays.whole, List.map_cons, List.mapM_cons] at ih ⊢
        cases first : Quantity.isSized i with
        | false => exact ⟨_, by rw [wholeNumber, first]; rfl, rfl⟩
        | true =>
            obtain ⟨j, mem, unsized⟩ := large
            have later : j ∈ rest := (List.mem_cons.mp mem).resolve_left fun same => by
              rw [same, first] at unsized
              cases unsized
            obtain ⟨fault, failed, flaw⟩ := ih ⟨j, later, unsized⟩
            exact ⟨fault, by rw [wholeNumber, first, failed]; rfl, flaw⟩

end TapeMachine.StandIn
