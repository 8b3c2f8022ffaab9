import Mathlib.Data.List.Chain
import TapeMachine.Command.Menu

set_option autoImplicit false

namespace TapeMachine

namespace Text

def bracketless (t : Text) : Bool := !t.contains (CodePoint.ofChar '[')

@[simp] theorem bracketless_append (t u : Text) : (t ++ u).bracketless = (t.bracketless && u.bracketless) := by
  simp [bracketless]

theorem bracketless_digits (t : Text) (digits : ∀ c ∈ t, c.isDigit = true) : t.bracketless = true := by
  simp only [bracketless, Bool.not_eq_true', List.contains_eq_mem, decide_eq_false_iff_not]
  intro mem
  exact absurd (digits _ mem) (by decide)

@[simp] theorem bracketless_numeral (n : Nat) : (numeral n).bracketless = true :=
  bracketless_digits _ (numeral_digits n)

theorem bracketless_flatten (ts : List Text) (each : ∀ t ∈ ts, t.bracketless = true) :
    bracketless ts.flatten = true := by
  induction ts with
  | nil => rfl
  | cons t rest ih =>
      obtain ⟨first, others⟩ := List.forall_mem_cons.mp each
      simp [first, ih others]

@[simp] theorem bracketless_grouped (n : Nat) : (groupedNumeral n).bracketless = true := by
  have positive : ¬ (n : Int) < 0 := by omega
  rw [groupedNumeral, if_neg positive, groupThousands]
  refine bracketless_flatten _ fun t mem => ?_
  obtain ⟨⟨c, i⟩, listed, rfl⟩ := List.mem_map.mp mem
  have digit : c.isDigit = true := numeral_digits _ c (List.fst_mem_of_mem_zipIdx listed)
  have single : bracketless [c] = true := bracketless_digits [c] (by simpa using digit)
  dsimp only
  split
  · exact (bracketless_append [CodePoint.ofChar ','] [c]).trans (by rw [single]; rfl)
  · exact single

@[simp] theorem bracketless_cons (c : CodePoint) (t : Text) :
    bracketless (c :: t) = true ↔ c ≠ '[' ∧ t.bracketless = true := by
  simp [bracketless, Ne, @eq_comm _ c]

/-- No bracket stands before a code point that opens a tag. -/
theorem untagged_chain (t : Text) :
    t.untagged = true ↔ t.IsChain fun c d => ¬ (c = CodePoint.ofChar '[' ∧ d.opensTag = true) := by
  induction t with
  | nil => simp [untagged]
  | cons c rest ih =>
      cases rest with
      | nil => simp [untagged]
      | cons d more =>
          rw [untagged, List.isChain_cons_cons, Bool.and_eq_true, ih]
          simp [imp_iff_not_or]

/-- Texts without tags have none together, if no bracket of the first opens one in the second. -/
theorem untagged_append (t u : Text) (first : t.untagged = true) (second : u.untagged = true)
    (seam : t.getLast? ≠ some (CodePoint.ofChar '[') ∨ ∀ d ∈ u.head?, d.opensTag = false) :
    untagged (t ++ u) = true := by
  refine (untagged_chain _).mpr
    (List.isChain_append.mpr ⟨(untagged_chain t).mp first, (untagged_chain u).mp second, ?_⟩)
  rintro c last d next ⟨bracket, opens⟩
  rcases seam with other | closed
  · exact other (bracket ▸ last)
  · rw [closed d next] at opens
    cases opens

theorem untagged_bracketless (t : Text) (bare : t.bracketless = true) : t.untagged = true := by
  induction t with
  | nil => rfl
  | cons c rest ih =>
      cases rest with
      | nil => rfl
      | cons d more =>
          obtain ⟨plain, later⟩ := (bracketless_cons c (d :: more)).mp bare
          rw [untagged, ih later]
          simp [plain]

theorem untagged_after (t u : Text) (bare : t.bracketless = true) : untagged (t ++ u) = u.untagged := by
  induction t with
  | nil => rfl
  | cons c rest ih =>
      obtain ⟨plain, later⟩ := (bracketless_cons c rest).mp bare
      rw [List.cons_append, ← ih later]
      cases rest ++ u with
      | nil => rfl
      | cons d more => simp [untagged, plain]

end Text

namespace Screen

theorem tame_bracketless (t : Text) (bare : t.bracketless = true) : Tame t := .untagged t (t.untagged_bracketless bare)

theorem bracketless_taken [Screen] (lawful : Screen.Lawful) (t : Text)
    (bare : t.bracketless = true) : refuses t = none :=
  lawful.tame t (tame_bracketless t bare)

theorem tame_styled (style t : Text) (known : style ∈ styles) (plain : t.untagged = true) : Tame (styled style t) :=
  .styled [] style t (by simp) known plain

theorem styled_taken [Screen] (lawful : Screen.Lawful) (style t : Text) (known : style ∈ styles)
    (bare : t.bracketless = true) :
    refuses (styled style t) = none := lawful.tame _ (tame_styled style t known (t.untagged_bracketless bare))

theorem style_ends (style rest : Text) (known : style ∈ styles) :
    (style ++ "]" ++ rest).takeWhile (fun c => c ≠ CodePoint.ofChar ']') = style := by
  simp only [styles, List.mem_cons, List.not_mem_nil, or_false] at known
  rcases known with rfl | rfl | rfl | rfl | rfl | rfl <;> rfl

theorem styled_tagged (style t : Text) (known : style ∈ styles) : (styled style t).untagged = false := by
  simp only [styles, List.mem_cons, List.not_mem_nil, or_false] at known
  rcases known with rfl | rfl | rfl | rfl | rfl | rfl <;> rfl

/-- A text with a style around it is tame only if there is no tag in it. -/
theorem tame_styled_iff (style t : Text) (known : style ∈ styles) : Tame (styled style t) ↔ t.untagged = true := by
  constructor
  · intro tame
    generalize same : styled style t = whole at tame
    cases tame with
    | untagged _ plain =>
        rw [← same, styled_tagged style t known] at plain
        cases plain
    | styled lead style' t' bare known' plain =>
        cases lead with
        | cons c rest => exact absurd (List.cons.inj same).1.symm (bare c List.mem_cons_self).1
        | nil =>
            have inner : style ++ "]" ++ (t ++ "[/" ++ style ++ "]") =
                style' ++ "]" ++ (t' ++ "[/" ++ style' ++ "]") := by
              simpa [styled] using same
            -- A style ends at the first closing bracket, so the two are one.
            have ends := congrArg (List.takeWhile fun c => c ≠ CodePoint.ofChar ']') inner
            rw [style_ends style _ known, style_ends style' _ known'] at ends
            subst ends
            simp only [List.append_assoc, List.append_cancel_left_eq, List.append_cancel_right_eq] at inner
            rwa [inner]
  · exact tame_styled style t known

end Screen

open Screen

theorem Menu.title_taken [Screen] (lawful : Screen.Lawful) (t : Text) (bare : t.bracketless = true) :
    refuses (Menu.title t) = none :=
  lawful.tame _ (.styled "\n" "bold" t (by decide) (by decide) (t.untagged_bracketless bare))

theorem Menu.updated_taken [Screen] (lawful : Screen.Lawful) : refuses Menu.updated = none :=
  styled_taken lawful "green" _ (by decide) rfl

theorem Menu.heading_taken [Screen] (lawful : Screen.Lawful) : ∀ t ∈ Menu.heading, refuses t = none := by
  simp only [Menu.heading, List.forall_mem_cons]
  refine ⟨lawful.tame _ (.styled "\n" "bold cyan" _ (by decide) (by decide) (by decide)), ?_⟩
  refine ⟨lawful.tame _ (.untagged _ (by decide)), lawful.tame _ (.untagged _ (by decide)), ?_⟩
  exact ⟨lawful.tame _ (.untagged _ (by decide)), lawful.tame _ (.untagged _ (by decide)),
    lawful.tame _ (.untagged _ (by decide)), nofun⟩

theorem Menu.goodbye_taken [Screen] (lawful : Screen.Lawful) : refuses Menu.goodbye = none :=
  styled_taken lawful "bold green" _ (by decide) rfl

/-- A fault is told unless there are tags in its message. -/
theorem Command.complaint_tagged [Screen] (lawful : Screen.Lawful) (lead : Text)
    (bare : lead.bracketless = true) (fault : Fault) (message : Text)
    (refused : refuses (Command.complaint lead fault) = some message) : fault.message.untagged = false := by
  have front : (lead ++ ": ").bracketless = true := by rw [Text.bracketless_append, bare]; rfl
  refine Bool.eq_false_iff.mpr fun plain => ?_
  rw [Command.complaint,
    lawful.tame _ (tame_styled "red" _ (by decide) (by rw [Text.untagged_after _ _ front, plain]))] at refused
  cases refused

theorem PoolRun.loaded_text_tame (words pending : Nat) : Tame (loadedText words pending) := by
  refine tame_bracketless _ ?_
  simp only [loadedText, Text.bracketless_append, Text.bracketless_grouped, Bool.and_true]
  decide

theorem PoolRun.announced_tame (number size : Nat) : Tame (announced number size) := by
  refine tame_bracketless _ ?_
  simp only [announced, Text.bracketless_append, Text.bracketless_grouped, Text.bracketless_numeral, Bool.and_true]
  decide

/-- What is said at the end of a run is said of any number of words if of one. -/
theorem PoolRun.success_counted [Screen] (lawful : Screen.Lawful) (run : PoolRun) (n m : Nat)
    (taken : refuses (run.success n) = none) : refuses (run.success m) = none := by
  -- Cut so, the number stands between texts that are the same for every number.
  have split (k : Nat) : run.success k = "[green][SUCCESS" ++ "]" ++ " " ++ groupedNumeral k ++
      (" inputs simulated. Results saved to " ++ run.resultsFile.toText ++ "[/green]") := by
    simp only [success, styled, List.append_assoc]
    rfl
  rw [split] at taken ⊢
  exact lawful.counted _ _ _ n m (by decide) taken

end TapeMachine
