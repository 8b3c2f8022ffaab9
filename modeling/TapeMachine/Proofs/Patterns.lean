import TapeMachine.Definition.Pattern

set_option autoImplicit false

namespace TapeMachine

namespace Pattern

theorem cuts_iff (kind : CodePoint → Bool) (t u v : Text) :
    (u, v) ∈ cuts kind t ↔ t = u ++ v ∧ ∀ c ∈ u, kind c = true := by
  induction t generalizing u with
  | nil =>
      rw [cuts, List.mem_singleton, Prod.mk.injEq, List.nil_eq_append_iff]
      constructor
      · rintro ⟨rfl, rfl⟩
        simp
      · exact And.left
  | cons c t ih =>
      have here : (u, v) ∈ [(([] : Text), c :: t)] ↔ u = [] ∧ c :: t = v := by
        rw [List.mem_singleton, Prod.mk.injEq, @eq_comm Text v]
      by_cases fits : kind c = true
      · rw [cuts, if_pos fits, List.mem_append, here, List.mem_map]
        cases u with
        | nil => simp
        | cons d u =>
            constructor
            · rintro (⟨⟨u', v'⟩, mem, same⟩ | ⟨absurdly, _⟩)
              · cases same
                obtain ⟨rfl, all⟩ := (ih u').mp mem
                exact ⟨rfl, List.forall_mem_cons.mpr ⟨fits, all⟩⟩
              · cases absurdly
            · rintro ⟨whole, all⟩
              obtain ⟨rfl, rfl⟩ := List.cons_eq_cons.mp whole
              exact .inl ⟨(u, v), (ih u).mpr ⟨rfl, fun d mem => all d (List.mem_cons_of_mem c mem)⟩, rfl⟩
      · rw [cuts, if_neg fits, here]
        cases u with
        | nil => simp
        | cons d u =>
            refine iff_of_false (fun absurdly => List.cons_ne_nil d u absurdly.1) ?_
            rintro ⟨whole, all⟩
            obtain ⟨rfl, _⟩ := List.cons_eq_cons.mp whole
            exact fits (all c List.mem_cons_self)

theorem ways_iff (p : Pattern) (t taken rest : Text) (groups : Groups) :
    ⟨taken, rest, groups⟩ ∈ p.ways t ↔ t = taken ++ rest ∧ p.Matches taken groups := by
  -- Over the pattern, for all texts at once: a second part is matched behind every way of the first.
  induction p generalizing t taken rest groups with
  | one kind =>
      cases t with
      | nil =>
          refine iff_of_false List.not_mem_nil ?_
          rintro ⟨whole, ⟨c, _, rfl⟩, _⟩
          cases whole
      | cons c t =>
          rw [ways, Matches]
          constructor
          · intro mem
            split at mem
            · rename_i fits
              cases List.mem_singleton.mp mem
              exact ⟨rfl, ⟨c, fits, rfl⟩, rfl⟩
            · cases mem
          · rintro ⟨whole, ⟨d, fits, rfl⟩, rfl⟩
            obtain ⟨rfl, rfl⟩ := List.cons_eq_cons.mp whole
            rw [if_pos fits]
            exact List.mem_singleton_self _
  | run kind =>
      rw [ways, Matches, List.mem_map]
      constructor
      · rintro ⟨⟨u, v⟩, mem, same⟩
        cases same
        obtain ⟨whole, all⟩ := (cuts_iff kind t u v).mp mem
        exact ⟨whole, all, rfl⟩
      · rintro ⟨whole, all, rfl⟩
        exact ⟨(taken, rest), (cuts_iff kind t taken rest).mpr ⟨whole, all⟩, rfl⟩
  | either first second before after =>
      rw [ways, Matches, List.mem_append, before, after, ← and_or_left]
  | perhaps p ih =>
      rw [ways, Matches, List.mem_append, ih, List.mem_singleton, Way.mk.injEq, and_or_left]
      refine or_congr_right ?_
      constructor
      · rintro ⟨rfl, rfl, rfl⟩
        exact ⟨rfl, rfl, rfl⟩
      · rintro ⟨rfl, rfl, rfl⟩
        exact ⟨rfl, rfl, rfl⟩
  | named part p ih =>
      rw [ways, Matches, List.mem_map]
      constructor
      · rintro ⟨⟨u, v, inner⟩, mem, same⟩
        cases same
        obtain ⟨whole, inside⟩ := (ih t u v inner).mp mem
        exact ⟨whole, inner, inside, rfl⟩
      · rintro ⟨whole, inner, inside, rfl⟩
        exact ⟨⟨taken, rest, inner⟩, (ih t taken rest inner).mpr ⟨whole, inside⟩, rfl⟩
  | both first second before after =>
      simp only [ways, Matches, List.mem_flatMap, List.mem_map]
      constructor
      · rintro ⟨⟨u, v, front⟩, mem, ⟨u', v', back⟩, mem', same⟩
        cases same
        obtain ⟨rfl, left⟩ := (before t u v front).mp mem
        obtain ⟨rfl, right⟩ := (after v u' v' back).mp mem'
        exact ⟨(List.append_assoc u u' v').symm, u, u', front, back, left, right, rfl, rfl⟩
      · rintro ⟨whole, u, v, front, back, left, right, rfl, rfl⟩
        rw [List.append_assoc] at whole
        exact ⟨⟨u, v ++ rest, front⟩, (before t u (v ++ rest) front).mpr ⟨whole, left⟩,
          ⟨v, rest, back⟩, (after (v ++ rest) v rest back).mpr ⟨rfl, right⟩, rfl⟩

theorem both_intro (first second : Pattern) (u v : Text) (before after : Groups) (front : first.Matches u before)
    (back : second.Matches v after) : (both first second).Matches (u ++ v) (before ++ after) :=
  ⟨u, v, before, after, front, back, rfl, rfl⟩

theorem many_matches (kind : CodePoint → Bool) (t : Text) (groups : Groups) :
    (many kind).Matches t groups ↔ (t ≠ [] ∧ ∀ c ∈ t, kind c = true) ∧ groups = [] := by
  constructor
  · rintro ⟨_, v, _, _, ⟨⟨c, fits, rfl⟩, rfl⟩, ⟨all, rfl⟩, rfl, rfl⟩
    exact ⟨⟨List.cons_ne_nil c v, List.forall_mem_cons.mpr ⟨fits, all⟩⟩, rfl⟩
  · rintro ⟨⟨filled, all⟩, rfl⟩
    obtain ⟨c, v, rfl⟩ := List.exists_cons_of_ne_nil filled
    obtain ⟨fits, rest⟩ := List.forall_mem_cons.mp all
    exact ⟨[c], v, [], [], ⟨⟨c, fits, rfl⟩, rfl⟩, ⟨rest, rfl⟩, rfl, rfl⟩

theorem named_one_matches (part : Part) (kind : CodePoint → Bool) (t : Text) (groups : Groups) :
    (named part (.one kind)).Matches t groups ↔ ∃ c, kind c = true ∧ t = [c] ∧ groups = [(part, [c])] := by
  constructor
  · rintro ⟨_, ⟨⟨c, fits, rfl⟩, rfl⟩, rfl⟩
    exact ⟨c, fits, rfl, rfl⟩
  · rintro ⟨c, fits, rfl, rfl⟩
    exact ⟨[], ⟨⟨c, fits, rfl⟩, rfl⟩, rfl⟩

theorem named_many_matches (part : Part) (kind : CodePoint → Bool) (t : Text) (groups : Groups) :
    (named part (many kind)).Matches t groups ↔ (t ≠ [] ∧ ∀ c ∈ t, kind c = true) ∧ groups = [(part, t)] := by
  constructor
  · rintro ⟨inner, fits, rfl⟩
    obtain ⟨all, rfl⟩ := (many_matches kind t inner).mp fits
    exact ⟨all, rfl⟩
  · rintro ⟨all, rfl⟩
    exact ⟨[], (many_matches kind t []).mpr ⟨all, rfl⟩, rfl⟩

def Stops (kind : CodePoint → Bool) (t : Text) : Prop := ∀ c rest, t = c :: rest → kind c = false

section Cutting

variable (kind : CodePoint → Bool) (u v : Text) (all : ∀ c ∈ u, kind c = true) (stops : Stops kind v)

include all stops

theorem cuts_first : ∃ others, cuts kind (u ++ v) = (u, v) :: others := by
  induction u with
  | nil =>
      cases v with
      | nil => exact ⟨[], rfl⟩
      | cons c v => exact ⟨[], by simp [cuts, stops c v rfl]⟩
  | cons c u ih =>
      obtain ⟨fits, rest⟩ := List.forall_mem_cons.mp all
      obtain ⟨others, first⟩ := ih rest
      exact ⟨_, by rw [List.cons_append, cuts, if_pos fits, first]; rfl⟩

theorem run_cut (u' v' : Text) (all' : ∀ c ∈ u', kind c = true) (stops' : Stops kind v') (same : u ++ v = u' ++ v') :
    u = u' ∧ v = v' := by
  obtain ⟨others, first⟩ := cuts_first kind u v all stops
  obtain ⟨others', first'⟩ := cuts_first kind u' v' all' stops'
  rw [same, first'] at first
  obtain ⟨cut, _⟩ := List.cons_eq_cons.mp first
  exact ⟨congrArg Prod.fst cut.symm, congrArg Prod.snd cut.symm⟩

theorem many_first (filled : u ≠ []) : ∃ others, (many kind).ways (u ++ v) = ⟨u, v, []⟩ :: others := by
  obtain ⟨c, rest, rfl⟩ := List.exists_cons_of_ne_nil filled
  obtain ⟨fits, tail⟩ := List.forall_mem_cons.mp all
  obtain ⟨others, first⟩ := cuts_first kind rest v tail stops
  exact ⟨_, by simp only [many, ways, List.cons_append, if_pos fits, List.flatMap_singleton, first, List.map_cons]; rfl⟩

end Cutting

section First

variable (t taken rest : Text) (groups : Groups)

theorem named_first (part : Part) (p : Pattern) (found : ∃ others, p.ways t = ⟨taken, rest, groups⟩ :: others) :
    ∃ others, (named part p).ways t = ⟨taken, rest, (part, taken) :: groups⟩ :: others := by
  obtain ⟨others, found⟩ := found
  exact ⟨_, by rw [ways, found]; rfl⟩

theorem both_first (first second : Pattern) (taken' rest' : Text) (groups' : Groups)
    (front : ∃ others, first.ways t = ⟨taken, rest, groups⟩ :: others)
    (back : ∃ others, second.ways rest = ⟨taken', rest', groups'⟩ :: others) :
    ∃ others, (both first second).ways t = ⟨taken ++ taken', rest', groups ++ groups'⟩ :: others := by
  obtain ⟨others, front⟩ := front
  obtain ⟨others', back⟩ := back
  exact ⟨_, by rw [ways, front, List.flatMap_cons, back]; rfl⟩

end First

end Pattern

end TapeMachine
