set_option autoImplicit false

namespace TapeMachine

variable {ε α β : Type}

@[simp] theorem ok_bind (a : α) (f : α → Except ε β) : (Except.ok a >>= f) = f a := rfl

@[simp] theorem error_bind (fault : ε) (f : α → Except ε β) : (Except.error fault >>= f) = .error fault := rfl

@[simp] theorem ok_bound (a : α) (f : α → Except ε β) : (Except.ok a : Except ε α).bind f = f a := rfl

@[simp] theorem error_bound (fault : ε) (f : α → Except ε β) :
    (Except.error fault : Except ε α).bind f = .error fault := rfl

@[simp] theorem pure_ok (a : α) : (pure a : Except ε α) = .ok a := rfl

@[simp] theorem throw_error (fault : ε) : (throw fault : Except ε α) = .error fault := rfl

@[simp] theorem ok_map (a : α) (f : α → β) : (Except.ok a : Except ε α).map f = .ok (f a) := rfl

@[simp] theorem error_map (fault : ε) (f : α → β) : (Except.error fault : Except ε α).map f = .error fault := rfl

@[simp] theorem ok_map_error {δ : Type} (a : α) (f : ε → δ) : (Except.ok a : Except ε α).mapError f = .ok a := rfl

@[simp] theorem error_map_error {δ : Type} (fault : ε) (f : ε → δ) :
    (Except.error fault : Except ε α).mapError f = .error (f fault) := rfl

theorem bind_ok (x : Except ε α) (f : α → Except ε β) (b : β) :
    (x >>= f) = .ok b ↔ ∃ a, x = .ok a ∧ f a = .ok b := by
  cases x with
  | error fault => simp
  | ok a =>
      constructor
      · intro same
        exact ⟨a, rfl, same⟩
      · rintro ⟨c, same, next⟩
        cases same
        exact next

@[simp] theorem map_ok (x : Except ε α) (f : α → β) (b : β) : x.map f = .ok b ↔ ∃ a, x = .ok a ∧ f a = b := by
  cases x with
  | error fault => simp
  | ok a => simp

theorem map_error_ok {δ : Type} (x : Except ε α) (f : ε → δ) (a : α) : x.mapError f = .ok a ↔ x = .ok a := by
  cases x <;> simp

theorem map_failed (x : Except ε α) (f : α → β) (fault : ε) : x.map f = .error fault ↔ x = .error fault := by
  cases x <;> simp

theorem map_error_error {δ : Type} (x : Except ε α) (f : ε → δ) (fault : δ) :
    x.mapError f = .error fault ↔ ∃ e, x = .error e ∧ f e = fault := by
  cases x <;> simp

theorem bind_error (x : Except ε α) (f : α → Except ε β) (fault : ε) :
    x >>= f = .error fault ↔ x = .error fault ∨ ∃ a, x = .ok a ∧ f a = .error fault := by
  cases x <;> simp

theorem to_option_ok (x : Except ε α) (a : α) : x.toOption = some a ↔ x = .ok a := by
  cases x with
  | error fault => simp [Except.toOption]
  | ok b => simp [Except.toOption]

theorem is_some_ok (x : Except ε α) (known : x.toOption.isSome = true) : ∃ a, x = .ok a := by
  obtain ⟨a, found⟩ := Option.isSome_iff_exists.mp known
  exact ⟨a, (to_option_ok x a).mp found⟩

theorem only_fault (x : Except ε α) (nothing : ∀ a, x ≠ .ok a) : ∃ fault, x = .error fault := by
  cases x with
  | error fault => exact ⟨fault, rfl⟩
  | ok a => exact absurd rfl (nothing a)

theorem map_all_ok (f : α → Except ε β) (g : α → β) (items : List α) (each : ∀ a ∈ items, f a = .ok (g a)) :
    items.mapM f = .ok (items.map g) := by
  induction items with
  | nil => rfl
  | cons a rest ih =>
      rw [List.mapM_cons, each a List.mem_cons_self, ih fun b mem => each b (List.mem_cons_of_mem a mem)]
      rfl

theorem map_all_length (f : α → Except ε β) (items : List α) (results : List β) (mapped : items.mapM f = .ok results) :
    results.length = items.length := by
  induction items generalizing results with
  | nil =>
      cases mapped
      rfl
  | cons a rest ih =>
      rw [List.mapM_cons] at mapped
      obtain ⟨b, first, mapped⟩ := (bind_ok _ _ _).mp mapped
      obtain ⟨others, after, mapped⟩ := (bind_ok _ _ _).mp mapped
      cases mapped
      rw [List.length_cons, List.length_cons, ih others after]

theorem map_all_each (f : α → Except ε β) (items : List α) (results : List β) (mapped : items.mapM f = .ok results) :
    ∀ b ∈ results, ∃ a ∈ items, f a = .ok b := by
  induction items generalizing results with
  | nil =>
      cases mapped
      simp
  | cons a rest ih =>
      rw [List.mapM_cons] at mapped
      obtain ⟨b, first, mapped⟩ := (bind_ok _ _ _).mp mapped
      obtain ⟨others, after, mapped⟩ := (bind_ok _ _ _).mp mapped
      cases mapped
      refine List.forall_mem_cons.mpr ⟨⟨a, List.mem_cons_self, first⟩, ?_⟩
      intro c mem
      obtain ⟨found, listed, made⟩ := ih others after c mem
      exact ⟨found, List.mem_cons_of_mem a listed, made⟩

theorem map_all_failed (f : α → Except ε β) (items : List α) (fault : ε) (failed : items.mapM f = .error fault) :
    ∃ a ∈ items, f a = .error fault := by
  induction items with
  | nil => cases failed
  | cons a rest ih =>
      rw [List.mapM_cons] at failed
      rcases (bind_error _ _ _).mp failed with here | ⟨b, _, failed⟩
      · exact ⟨a, List.mem_cons_self, here⟩
      · rcases (bind_error _ _ _).mp failed with later | ⟨_, _, absurdly⟩
        · obtain ⟨c, mem, there⟩ := ih later
          exact ⟨c, List.mem_cons_of_mem a mem, there⟩
        · cases absurdly

theorem map_all_found (f : α → Except ε β) (items : List α) (results : List β) (mapped : items.mapM f = .ok results) :
    ∀ a ∈ items, ∃ b ∈ results, f a = .ok b := by
  induction items generalizing results with
  | nil => simp
  | cons a rest ih =>
      rw [List.mapM_cons] at mapped
      obtain ⟨b, first, mapped⟩ := (bind_ok _ _ _).mp mapped
      obtain ⟨others, after, mapped⟩ := (bind_ok _ _ _).mp mapped
      cases mapped
      refine List.forall_mem_cons.mpr ⟨⟨b, List.mem_cons_self, first⟩, ?_⟩
      intro c mem
      obtain ⟨found, listed, made⟩ := ih others after c mem
      exact ⟨found, List.mem_cons_of_mem b listed, made⟩

end TapeMachine
