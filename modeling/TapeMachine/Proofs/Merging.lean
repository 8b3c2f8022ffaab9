import TapeMachine.Proofs.WellFormed

set_option autoImplicit false

namespace TapeMachine

section

variable {α : Type} [DecidableEq α]

theorem first_seen_filter (p : α → Bool) (xs : List α) : firstSeen (xs.filter p) = (firstSeen xs).filter p := by
  induction xs with
  | nil => rfl
  | cons a rest ih =>
      by_cases kept : p a = true
      · rw [List.filter_cons_of_pos kept, firstSeen, firstSeen, ih, List.filter_cons_of_pos kept]
        rw [List.filter_filter, List.filter_filter]
        simp only [Bool.and_comm]
      · rw [List.filter_cons_of_neg kept, firstSeen, ih, List.filter_cons_of_neg kept, List.filter_filter]
        apply List.filter_congr
        intro b _
        by_cases same : b = a
        · simpa [same] using kept
        · simp [same]

@[simp] theorem first_seen_append_left (xs ys : List α) : firstSeen (firstSeen xs ++ ys) = firstSeen (xs ++ ys) := by
  induction xs with
  | nil => rfl
  | cons a rest ih =>
      have cleared (zs : List α) : (firstSeen (zs.filter (· ≠ a) ++ ys)).filter
        (· ≠ a) = (firstSeen (zs ++ ys)).filter (· ≠ a) := by
        rw [← first_seen_filter, ← first_seen_filter, List.filter_append, List.filter_append, List.filter_filter]
        simp only [Bool.and_self]
      rw [firstSeen, List.cons_append, List.cons_append, firstSeen, firstSeen, cleared, ih]

@[simp] theorem first_seen_append_right (xs ys : List α) : firstSeen (xs ++ firstSeen ys) = firstSeen (xs ++ ys) := by
  induction xs with
  | nil => exact first_seen_of_nodup _ (first_seen_nodup ys)
  | cons a rest ih => rw [List.cons_append, List.cons_append, firstSeen, firstSeen, ih]

end

namespace Transition

def deduplicated (t : Transition) : Transition := { t with inputs := firstSeen t.inputs }

def gather : List Transition → List Transition
  | [] => []
  | t :: ts =>
      { t with inputs := firstSeen (t.inputs ++ (ts.filter fun u => u.target = t.target).flatMap inputs) } ::
        (gather ts).filter fun u => u.target ≠ t.target

theorem file_all_behind (t : Transition) (ts us : List Transition) :
    fileAll (ts.map deduplicated) (t.deduplicated :: us) =
      { t with inputs := firstSeen (t.inputs ++ (ts.filter fun u => u.target = t.target).flatMap inputs) } ::
        fileAll ((ts.filter fun u => u.target ≠ t.target).map deduplicated) us := by
  induction ts generalizing t us with
  | nil => simp [fileAll, deduplicated]
  | cons u rest ih =>
      rw [List.map_cons, fileAll, List.foldl_cons, ← fileAll]
      by_cases same : u.target = t.target
      · have merged : u.deduplicated.file (t.deduplicated :: us) =
            ({ t with inputs := t.inputs ++ u.inputs } : Transition).deduplicated :: us := by
          simp [file, deduplicated, merge, same]
        rw [merged, ih]
        simp [same]
      · have passed : u.deduplicated.file (t.deduplicated :: us) = t.deduplicated :: u.deduplicated.file us := by
          simp [file, deduplicated, Ne.symm same]
        rw [passed, ih]
        simp [same, fileAll]

theorem file_all_kept (keep : Nat → Bool) (ts : List Transition) :
    fileAll ((ts.filter fun u => keep u.target).map deduplicated) [] = (gather ts).filter fun u => keep u.target := by
  induction ts generalizing keep with
  | nil => rfl
  | cons t rest ih =>
      rw [gather]
      by_cases kept : keep t.target = true
      · have chosen : (rest.filter fun u => keep u.target).filter (fun u => u.target = t.target) =
            rest.filter fun u => u.target = t.target := by
          rw [List.filter_filter]
          apply List.filter_congr
          intro u _
          by_cases same : u.target = t.target
          · simp [same, kept]
          · simp [same]
        have others := ih fun target => keep target && decide (target ≠ t.target)
        have alone : t.deduplicated.file [] = [t.deduplicated] := rfl
        simp only [List.filter_cons, kept, if_true]
        rw [List.map_cons, fileAll, List.foldl_cons, ← fileAll, alone, file_all_behind, chosen,
          List.filter_filter, List.filter_filter]
        simp only [Bool.and_comm] at others ⊢
        rw [others]
      · rw [List.filter_cons, if_neg kept, ih, List.filter_cons, if_neg kept, List.filter_filter]
        apply List.filter_congr
        intro u _
        by_cases same : u.target = t.target
        · simpa [same] using kept
        · simp [same]

theorem file_all_gather (ts : List Transition) : fileAll (ts.map deduplicated) [] = gather ts := by
  simpa using file_all_kept (fun _ => true) ts

theorem mem_gather (u : Transition) (ts : List Transition) (mem : u ∈ gather ts) :
    (∃ t ∈ ts, u.target = t.target ∧ u.output = t.output) ∧ ∀ x ∈ u.inputs, ∃ t ∈ ts, x ∈ t.inputs := by
  induction ts with
  | nil => simp [gather] at mem
  | cons t rest ih =>
      rcases List.mem_cons.mp mem with rfl | later
      · refine ⟨⟨t, List.mem_cons_self, rfl, rfl⟩, ?_⟩
        intro x listed
        rcases List.mem_append.mp ((mem_first_seen x _).mp listed) with first | others
        · exact ⟨t, List.mem_cons_self, first⟩
        · obtain ⟨v, within, used⟩ := List.mem_flatMap.mp others
          exact ⟨v, List.mem_cons_of_mem t (List.mem_of_mem_filter within), used⟩
      · obtain ⟨⟨v, within, same⟩, inputs⟩ := ih (List.mem_of_mem_filter later)
        refine ⟨⟨v, List.mem_cons_of_mem t within, same⟩, ?_⟩
        intro x listed
        obtain ⟨w, within', used⟩ := inputs x listed
        exact ⟨w, List.mem_cons_of_mem t within', used⟩

theorem gather_of_distinct (ts : List Transition) (targets : (ts.map target).Nodup) :
    gather ts = ts.map deduplicated := by
  induction ts with
  | nil => rfl
  | cons t rest ih =>
      obtain ⟨absent, distinct⟩ := List.nodup_cons.mp targets
      have apart (u : Transition) (mem : u ∈ rest) : u.target ≠ t.target := by
        intro same
        exact absent (same ▸ List.mem_map_of_mem mem)
      have alone : rest.filter (fun u => u.target = t.target) = [] := by
        apply List.filter_eq_nil_iff.mpr
        simpa using apart
      have kept : (rest.map deduplicated).filter (fun u => u.target ≠ t.target) = rest.map deduplicated := by
        apply List.filter_eq_self.mpr
        simpa [deduplicated] using apart
      rw [gather, ih distinct, kept, alone, List.flatMap_nil, List.append_nil, List.map_cons, deduplicated]

theorem gather_of_well_formed (ts : List Transition) (targets : (ts.map target).Nodup) (good : ∀ t ∈ ts, t.WellFormed) :
    gather ts = ts := by
  have unchanged (t : Transition) (mem : t ∈ ts) : t.deduplicated = t := by
    rw [deduplicated, first_seen_of_nodup _ (good t mem).distinct]
  rw [gather_of_distinct ts targets, List.map_congr_left unchanged, List.map_id']

end Transition

end TapeMachine
