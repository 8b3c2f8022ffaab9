import TapeMachine.Proofs.Editing

set_option autoImplicit false

namespace TapeMachine

namespace Editing

theorem on_bind {α β : Type} (job : Editing α) (next : α → Editing β) (c : Configuration) :
    (job >>= next).on c = match job.on c with
      | (.ok a, c') => (next a).on c'
      | (.error fault, c') => (.error fault, c') := by
  have cut : (job >>= next).on c = (ExceptT.bindCont next (job.on c).1).run (job.on c).2 := rfl
  rw [cut]
  rcases job.on c with ⟨outcome | a, c'⟩ <;> rfl

@[simp] theorem look_up_on (label : Label) (c : Configuration) :
    (lookUp label).on c = ((c.get label).mapError .lookup, c) := by
  have asked : (get : Editing Configuration).on c = (.ok c, c) := rfl
  rw [lookUp, on_bind, asked]
  dsimp only
  cases c.get label <;> rfl

@[simp] theorem write_on (key : Label) (s : State) (c : Configuration) :
    (write key s).on c = (.ok (), c.write key s) := rfl

@[simp] theorem add_state_on (s : State) (c : Configuration) : (addState s).on c = (.ok (), c.add s) := by
  have own : Label.names (Label.ofId s.id) s.id = true := (Label.names_of_id s.id s.id).mpr rfl
  rw [addState, setItem, if_pos own, write_on, c.write_own s]

@[simp] theorem add_states_on (ss : List State) (c : Configuration) : (addStates ss).on c = (.ok (), c.addAll ss) := by
  induction ss generalizing c with
  | nil => rfl
  | cons s ss ih =>
      have cut : addStates (s :: ss) = addState s >>= fun _ => addStates ss := rfl
      rw [cut, on_bind, add_state_on]
      exact ih (c.add s)

section LookedUp

variable (c : Configuration) (distinct : (c.states.map State.id).Nodup)

include distinct

theorem get_named (label : Label) (s : State) (here : s ∈ c.states) (named : label.names s.id = true) :
    c.get label = .ok s := by
  rcases c.get_cases label distinct with ⟨u, _, names, found, got⟩ | ⟨_, _, unnamed, _⟩
  · have own : c.find? s.id = some s := find_keyed State.id c.states s distinct here
    rw [label.names_unique u.id s.id names named, own] at found
    cases found
    exact got
  · simp [unnamed s here] at named

theorem clear_one_on (label : Label) (s : State) (here : s ∈ c.states) (named : label.names s.id = true) :
    (clearTransitionsOf label).on c = (.ok (), c.add { s with transitions := [] }) := by
  have known : s.id ∈ c.states.map State.id := List.mem_map_of_mem here
  have written := c.write_known label { s with transitions := [] } known
  rw [clearTransitionsOf, on_bind, look_up_on, get_named c distinct label s here named, ← written]
  rfl

end LookedUp

theorem clear_each_on (c : Configuration) (kept : c.Kept) (front back : List State) (split : c.states = front ++ back) :
    ((back.map c.labelOf).forM clearTransitionsOf).on
        { c with states := front.map (fun s => { s with transitions := [] }) ++ back } =
          (.ok (), c.clearTransitions) := by
  induction back generalizing front with
  | nil =>
      rw [List.append_nil] at split
      rw [Configuration.clearTransitions, split, List.append_nil]
      rfl
  | cons s back ih =>
      let partly : Configuration := { c with states := front.map (fun s => { s with transitions := [] }) ++ s :: back }
      have ids : partly.states.map State.id = c.states.map State.id := by simp [partly, split]
      have distinct : (partly.states.map State.id).Nodup := ids ▸ kept.control.ids
      have named : (c.labelOf s).names s.id = true := c.label_names kept s.id
      have new : s.id ∉ (front.map fun s => ({ s with transitions := [] } : State)).map State.id := by
        have apart := kept.control.ids
        rw [split, List.map_append, List.map_cons] at apart
        have absent := (List.nodup_cons.mp (List.nodup_middle.mp apart)).1
        rw [List.mem_append, not_or] at absent
        simpa [Function.comp_def] using absent.1
      have placed : partly.add { s with transitions := [] } =
          { c with states := (front ++ [s]).map (fun s => { s with transitions := [] }) ++ back } := by
        rw [Configuration.add, Configuration.place_split _ back { s with transitions := [] } s rfl new]
        simp [partly]
      have cut : ((s :: back).map c.labelOf).forM clearTransitionsOf =
          clearTransitionsOf (c.labelOf s) >>= fun _ => (back.map c.labelOf).forM clearTransitionsOf := rfl
      have first := clear_one_on partly distinct (c.labelOf s) s (by simp [partly]) named
      rw [cut, on_bind, first, placed]
      exact ih (front ++ [s]) (by simpa using split)

end Editing

namespace Edit

section InPlace

variable (c : Configuration) (kept : c.Kept)

include kept

theorem program_on (e : Edit) : e.program.on c = match c.edited e with
    | .ok c' => (.ok (), c')
    | .error fault => (.error fault, c) := by
  have distinct := kept.control.ids
  cases e with
  | addState s => exact Editing.add_state_on s c
  | addStates ss => exact Editing.add_states_on ss c
  | setItem key s =>
      rw [program, Editing.setItem, Configuration.edited, Configuration.addUnder]
      by_cases names : key.names s.id = true
      · rw [if_pos names, if_pos names]
        rfl
      · rw [if_neg names, if_neg names]
        rfl
  | removeState label =>
      rw [program, Editing.removeState, Editing.on_bind, Configuration.edited, Configuration.remove]
      cases found : c.get label with
      | ok s =>
          rw [Editing.look_up_on, found]
          rfl
      | error fault =>
          rw [Editing.look_up_on, found]
          rfl
  | addTransition source target action output inputs =>
      rw [program, Editing.addTransition, Editing.on_bind, Configuration.edited, Configuration.addTransition]
      rcases c.get_cases source distinct with ⟨s, here, _, _, got⟩ | ⟨fault, missing, _, _⟩
      · rw [Editing.look_up_on, got]
        cases given : Transition.ofGiven target action output inputs with
        | ok t =>
            have known : s.id ∈ c.states.map State.id := List.mem_map_of_mem here
            -- The state was found under this label, so to write it back gives it no other key.
            have written := c.write_known source (s.withTransition t) known
            simp only [ok_map_error, Editing.write_on, written]
            rfl
        | error fault => rfl
      · rw [Editing.look_up_on, missing]
        rfl
  | removeTransition source target =>
      rw [program, Editing.removeTransition, Editing.on_bind, Configuration.edited, Configuration.removeTransition]
      rcases c.get_cases source distinct with ⟨s, here, _, _, got⟩ | ⟨fault, missing, _, _⟩
      · rw [Editing.look_up_on, got]
        cases rest : s.without target with
        | ok cut =>
            obtain ⟨u, t⟩ := cut
            have same : u.id = s.id := by
              rcases s.without_cases target (kept.control.states s here).targets with ⟨v, _, _, done⟩ | ⟨_, failed, _⟩
              · rw [done] at rest
                cases rest
                rfl
              · rw [failed] at rest
                cases rest
            have written := c.write_known source u (same ▸ List.mem_map_of_mem here)
            simp only [ok_bind, ok_map_error, rest, Editing.write_on, written]
            rfl
        | error fault =>
            simp only [ok_bind, error_bind, ok_map_error, rest]
            rfl
      · rw [Editing.look_up_on, missing]
        rfl
  | clearTransitions label =>
      have asked : (clearTransitions label).program.on c =
          ((if label = .null then c.ids else [label]).forM Editing.clearTransitionsOf).on c := rfl
      rw [asked, Configuration.edited]
      by_cases all : label = .null
      · rw [if_pos all, if_pos all]
        exact Editing.clear_each_on c kept [] c.states rfl
      · have alone : [label].forM Editing.clearTransitionsOf = Editing.clearTransitionsOf label >>=
            fun _ => pure () := rfl
        rw [if_neg all, if_neg all, alone, Editing.on_bind, Configuration.clearTransitionsOf]
        rcases c.get_cases label distinct with ⟨s, here, named, _, got⟩ | ⟨fault, missing, _, _⟩
        · rw [Editing.clear_one_on c distinct label s here named, got]
          rfl
        · rw [Editing.clearTransitionsOf, Editing.on_bind, Editing.look_up_on, missing]
          rfl
  | clear => rfl
  | setStart label => rfl

end InPlace

end Edit

namespace Configuration

def editAll (c : Configuration) (es : List Edit) : Configuration := es.foldl (fun c e => (e.program.on c).2) c

structure Sound (c : Configuration) : Prop where
  keys : ∀ k ∈ c.keys, k.2.names k.1 = true
  distinct : (c.states.map State.id).Nodup
  built : ∀ s ∈ c.states, s.Built
  filed : ∀ s ∈ c.states, ∀ t ∈ s.transitions, s.towardId? t.target = some t
  inputs : ∀ s ∈ c.states, ∀ t ∈ s.transitions, t.inputs ≠ [] ∧ t.inputs.Nodup

theorem kept_sound (c : Configuration) (kept : c.Kept) : c.Sound where
  keys := by
    intro k mem
    rw [keys_ids] at mem
    obtain ⟨id, _, rfl⟩ := List.mem_map.mp mem
    exact c.label_names kept id
  distinct := kept.control.ids
  built := fun s mem => s.built_iff.mpr (kept.control.states s mem)
  filed := by
    intro s mem t within
    exact find_keyed Transition.target s.transitions t (kept.control.states s mem).targets within
  inputs := by
    intro s mem t within
    obtain ⟨filled, distinct⟩ := (kept.control.states s mem).transitions t within
    exact ⟨filled, distinct⟩

theorem of_states_kept (ss : List State) (start : Label) (built : ∀ s ∈ ss, s.Built) : (ofStates ss start).Kept := by
  apply add_all_kept
  · exact ⟨⟨List.nodup_nil, by simp⟩, by simp, by simp⟩
  · exact fun s mem => s.built_iff.mp (built s mem)

theorem program_kept (c : Configuration) (kept : c.Kept) (e : Edit) (valid : ∀ s ∈ e.states, s.Built) :
    (e.program.on c).2.Kept := by
  rw [Edit.program_on c kept e]
  rcases Edit.edited_settled c kept e fun s mem => s.built_iff.mp (valid s mem) with
    ⟨c', edited, _, _, kept'⟩ | ⟨fault, refused, _, _⟩
  · rw [edited]
    exact kept'
  · rw [refused]
    exact kept

theorem edit_all_kept (c : Configuration) (kept : c.Kept) (es : List Edit) (valid : ∀ e ∈ es, ∀ s ∈ e.states, s.Built) :
    (c.editAll es).Kept := by
  induction es generalizing c with
  | nil => exact kept
  | cons e es ih =>
      obtain ⟨here, later⟩ := List.forall_mem_cons.mp valid
      exact ih _ (c.program_kept kept e here) later

/-- A configuration of states that pass their checks, after edits of any kinds with any arguments:
it is sound, and so it is after one more. This one is done exactly where it fits: then it changes
what it names, keeps the keys and places of what it does not remove, and puts new states last.
Otherwise it is refused, and nothing at all is changed. -/
theorem edits_are_done_or_change_nothing (ss : List State) (start : Label) (es : List Edit) (e : Edit)
    (built : ∀ s ∈ ss, s.Built) (valid : ∀ f ∈ e :: es, ∀ s ∈ f.states, s.Built) :
    let c := (ofStates ss start).editAll es
    let outcome := (e.program.on c).1
    let c' := (e.program.on c).2
    c.Sound ∧ c'.Sound ∧ (outcome = .ok () ↔ e.Fits c) ∧
      (outcome = .ok () → c.edited e = .ok c' ∧ e.Done c c' ∧
        ∀ id : Nat, e.names id = false → c'.find? id = c.find? id) ∧
      ∀ fault, outcome = .error fault → c.edited e = .error fault ∧ c' = c ∧ e.Refused fault := by
  obtain ⟨here, earlier⟩ := List.forall_mem_cons.mp valid
  intro c outcome c'
  have kept : c.Kept := edit_all_kept _ (of_states_kept ss start built) es earlier
  have good (s : State) (mem : s ∈ e.states) : s.WellFormed := s.built_iff.mp (here s mem)
  refine ⟨c.kept_sound kept, c'.kept_sound (c.program_kept kept e here), ?_⟩
  have run := Edit.program_on c kept e
  rcases Edit.edited_settled c kept e good with ⟨after, edited, fits, done, _⟩ | ⟨fault, refused, unfit, kind⟩
  · rw [edited] at run
    have succeeded : outcome = .ok () := congrArg Prod.fst run
    have same : c' = after := congrArg Prod.snd run
    refine ⟨iff_of_true succeeded fits, ?_, ?_⟩
    · intro _
      rw [same]
      exact ⟨edited, done, fun id unnamed => by rw [done.found, e.effect_unnamed id _ unnamed]⟩
    · intro fault failed
      rw [succeeded] at failed
      cases failed
  · rw [refused] at run
    have failed : outcome = .error fault := congrArg Prod.fst run
    have same : c' = c := congrArg Prod.snd run
    refine ⟨iff_of_false (by simp [failed]) unfit, ?_, ?_⟩
    · intro succeeded
      rw [failed] at succeeded
      cases succeeded
    · intro other told
      rw [failed] at told
      cases told
      exact ⟨refused, same, kind⟩

def editedStates : List State := [⟨0, .none, [⟨1, .right, .text "b", [.text "a"]⟩]⟩, ⟨1, .accept, []⟩]

def someEdits : List Edit := [
  .setItem (.bool true) ⟨1, .reject, []⟩,
  .setItem (.int 3) ⟨4, .none, []⟩,
  .addTransition (.int 0) (.int (-1)) (.int 0) (.text "a") (.word "a"),
  .addTransition (.int 8) (.int 1) (.int 0) (.text "a") (.word "a"),
  .addStates [⟨5, .none, []⟩, ⟨7, .none, []⟩, ⟨5, .accept, []⟩],
  .removeTransition (.int 0) (.int 9),
  .removeState (.list []),
  .setItem (.bool false) ⟨0, .none, [⟨7, .stay, .null, [.int 1]⟩]⟩,
  .clearTransitions (.text "0"),
  .removeState (.int 1),
  .setItem (.bool true) ⟨1, .none, []⟩,
  .setStart (.text "x")]

theorem refused_edits_leave_the_others :
    let c := (ofStates editedStates (.int 0)).editAll someEdits
    let e : Edit := .addTransition (.bool true) (.int 9) (.int 2) (.text "b") (.word "aba")
    let c' := (e.program.on c).2
    c'.Sound ∧ c'.find? 5 = some ⟨5, .accept, []⟩ ∧ c'.find? 1 = some ⟨1, .none,
      [⟨9, .right, .text "b", [.text "a", .text "b"]⟩]⟩ ∧
      c'.keys = [(0, .int 0), (5, .int 5), (7, .int 7), (1, .bool true)] ∧ c'.start = .text "x" := by
  intro c e c'
  have bare (id : Nat) (acceptance : Acceptance) : State.Built ⟨id, acceptance, []⟩ :=
    (State.built_iff _).mpr (cleared_well_formed ⟨id, acceptance, []⟩)
  have single (id : Nat) (t : Transition) (good : t.WellFormed) : State.Built ⟨id, .none, [t]⟩ :=
    (State.built_iff _).mpr ⟨List.nodup_singleton t.target, by simpa using good⟩
  have built : ∀ s ∈ editedStates, s.Built := by
    simp only [editedStates, List.forall_mem_cons]
    exact ⟨single 0 _ ⟨by decide, by decide⟩, bare 1 .accept, by simp⟩
  have valid : ∀ f ∈ e :: someEdits, ∀ s ∈ f.states, s.Built := by
    simp only [someEdits, e, Edit.states, List.forall_mem_cons, List.not_mem_nil, false_imp_iff,
      implies_true, and_true, true_and]
    exact ⟨bare 1 .reject, bare 4 .none, ⟨bare 5 .none, bare 7 .none, bare 5 .accept⟩,
      single 0 _ ⟨by decide, by decide⟩, bare 1 .none⟩
  have found : c.find? 5 = some ⟨5, .accept, []⟩ := by decide +kernel
  have passed : (e.program.on c).1.toBool = true := by decide +kernel
  have succeeded : (e.program.on c).1 = .ok () := by
    cases ended : (e.program.on c).1 with
    | ok _ => rfl
    | error fault =>
        rw [ended] at passed
        cases passed
  obtain ⟨_, sound, _, done, _⟩ := edits_are_done_or_change_nothing editedStates (.int 0) someEdits e built valid
  obtain ⟨_, ⟨effect, _, start⟩, others⟩ := done succeeded
  exact ⟨sound, (others 5 rfl).trans found, (effect 1).trans (by decide +kernel),
    by decide +kernel, start.trans (by decide +kernel)⟩

end Configuration

end TapeMachine
