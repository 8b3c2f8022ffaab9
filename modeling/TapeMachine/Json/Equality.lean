import TapeMachine.Json.Basic

set_option autoImplicit false

namespace TapeMachine.Json

mutual
def agrees : Json → Json → Bool
  | .null, .null => true
  | .bool a, .bool b => a = b
  | .int a, .int b => a = b
  | .float a, .float b => a = b
  | .text a, .text b => a = b
  | .list as, .list bs => agreeItems as bs
  | .object as, .object bs => agreeFields as bs
  | _, _ => false

def agreeItems : List Json → List Json → Bool
  | [], [] => true
  | a :: as, b :: bs => agrees a b && agreeItems as bs
  | _, _ => false

def agreeFields : List (Text × Json) → List (Text × Json) → Bool
  | [], [] => true
  | (k, a) :: as, (l, b) :: bs => k = l && agrees a b && agreeFields as bs
  | _, _ => false
end

mutual
@[simp] theorem agrees_refl : (a : Json) → agrees a a = true
  | .null => by simp [agrees]
  | .bool _ => by simp [agrees]
  | .int _ => by simp [agrees]
  | .float _ => by simp [agrees]
  | .text _ => by simp [agrees]
  | .list as => by simp [agrees, agree_items_refl as]
  | .object as => by simp [agrees, agree_fields_refl as]

theorem agree_items_refl : (as : List Json) → agreeItems as as = true
  | [] => by simp [agreeItems]
  | a :: as => by simp [agreeItems, agrees_refl a, agree_items_refl as]

theorem agree_fields_refl : (as : List (Text × Json)) → agreeFields as as = true
  | [] => by simp [agreeFields]
  | (_, a) :: as => by simp [agreeFields, agrees_refl a, agree_fields_refl as]
end

mutual
theorem eq_of_agrees : (a b : Json) → agrees a b = true → a = b
  | .list as, b, same => by
      cases b <;> simp only [agrees, Bool.false_eq_true] at same
      exact congrArg _ (eq_of_agree_items as _ same)
  | .object as, b, same => by
      cases b <;> simp only [agrees, Bool.false_eq_true] at same
      exact congrArg _ (eq_of_agree_fields as _ same)
  | .null, b, same => by cases b <;> simp_all [agrees]
  | .bool _, b, same => by cases b <;> simp_all [agrees]
  | .int _, b, same => by cases b <;> simp_all [agrees]
  | .float _, b, same => by cases b <;> simp_all [agrees]
  | .text _, b, same => by cases b <;> simp_all [agrees]

theorem eq_of_agree_items : (as bs : List Json) → agreeItems as bs = true → as = bs
  | [], bs, same => by cases bs <;> simp_all [agreeItems]
  | a :: as, bs, same => by
      cases bs with
      | nil => simp [agreeItems] at same
      | cons b bs =>
          simp only [agreeItems, Bool.and_eq_true] at same
          rw [eq_of_agrees a b same.1, eq_of_agree_items as bs same.2]

theorem eq_of_agree_fields : (as bs : List (Text × Json)) → agreeFields as bs = true → as = bs
  | [], bs, same => by cases bs <;> simp_all [agreeFields]
  | (k, a) :: as, bs, same => by
      cases bs with
      | nil => simp [agreeFields] at same
      | cons field bs =>
          obtain ⟨l, b⟩ := field
          simp only [agreeFields, Bool.and_eq_true, decide_eq_true_eq] at same
          rw [same.1.1, eq_of_agrees a b same.1.2, eq_of_agree_fields as bs same.2]
end

theorem agrees_iff (a b : Json) : agrees a b = true ↔ a = b :=
  ⟨eq_of_agrees a b, fun same => same ▸ agrees_refl a⟩

instance : DecidableEq Json := fun a b => decidable_of_iff _ (agrees_iff a b)

end TapeMachine.Json
