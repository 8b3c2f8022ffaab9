import TapeMachine.Definition.Printer
import TapeMachine.Definition.Reader
import TapeMachine.Proofs.LineReading

set_option autoImplicit false

namespace TapeMachine

namespace Line

open Text (Gap Solid Digits Tidy)

theorem single_space_gap : Gap " " := by
  intro c mem
  rw [List.mem_singleton.mp mem]
  rfl

theorem single_space : (" " : Text) ≠ [] ∧ Gap " " := ⟨by decide, single_space_gap⟩

theorem read_charset (rest : Text) (tidy : Tidy rest) :
    read? ("%charset " ++ rest) = some (.charset ((Text.words rest).filterMap List.head?)) :=
  form_read _ _ (.charset "%charset" " " rest rfl single_space tidy.first (Text.tidy_no_feed rest tidy))

theorem read_blank (c : CodePoint) (visible : c.isBlank = false) : read? ("%blank " ++ [c]) = some (.blank c) :=
  form_read _ _ (.blank "%blank" " " c rfl single_space visible)

theorem read_memory (word : Text) (solid : Solid word) (filled : word ≠ []) :
    read? ("%memory " ++ word) = some (.memory word) := by
  have tidy := Text.tidy_solid word solid filled
  exact form_read _ _ (.memory "%memory" " " word rfl single_space tidy.first (Text.tidy_no_feed word tidy))

theorem read_state (marker id gap tag : Text) (isStart : Bool) (acceptance : Acceptance) (marks : Marker isStart marker)
    (number : Digits id) (isGap : Gap gap) (tags : acceptance? tag = some acceptance) :
    read? (marker ++ (id ++ (gap ++ tag))) = some (.state isStart id acceptance) :=
  form_read _ _ (.state _ id isStart acceptance (.mk marker gap tag marks number isGap tags))

theorem printed_parts (source inputs target : Text) (output letter : CodePoint) :
    source ++ " " ++ inputs ++ " -> " ++ [output] ++ " " ++ [letter] ++ " " ++ target =
      source ++ (" " ++ (inputs ++ behindInputs " " " " " " " " output letter target)) := by
  have arrow : (" -> " : Text) = " " ++ [CodePoint.ofChar '-', CodePoint.ofChar '>'] ++ " " := rfl
  simp [arrow, behindInputs]

theorem read_transition (source inputs target : Text) (output : CodePoint) (action : Action) (isSource : Digits source)
    (filled : inputs ≠ []) (solid : Solid inputs) (visible : output.isBlank = false) (isTarget : Digits target) :
    read? (source ++ " " ++ inputs ++ " -> " ++ [output] ++ " " ++ [action.letter] ++ " " ++ target) =
      some (.transition source inputs output action target) := by
  have letter : action? action.letter = some action := by cases action <;> rfl
  have form := TransitionForm.mk " " " " " " " " " " action.letter isSource single_space ⟨filled,
    solid⟩ single_space_gap
    single_space_gap visible single_space letter single_space isTarget
  rw [printed_parts]
  exact form_read _ _ (.transition _ source inputs target output action form)

theorem tidy_transition (source inputs target : Text) (output letter : CodePoint) (isSource : Digits source)
    (filled : inputs ≠ [])
    (solid : Solid inputs) (visible : output.isBlank = false) (moves : letter.isBlank = false)
    (isTarget : Digits target) :
    Tidy (source ++ " " ++ inputs ++ " -> " ++ [output] ++ " " ++ [letter] ++ " " ++ target) := by
  have single (c : CodePoint) (visible : c.isBlank = false) : Tidy [c] :=
    Text.tidy_solid [c] (by simpa [Solid] using visible) (List.cons_ne_nil c [])
  have number (id : Text) (digits : Digits id) : Tidy id := Text.tidy_solid id (Text.digits_solid id digits) digits.1
  have tidyArrow : Tidy "->" := Text.tidy_solid "->" (by unfold Solid; decide) (by decide)
  have moved := Text.tidy_spaced _ _ (single letter moves) (number target isTarget)
  have written := Text.tidy_spaced _ _ tidyArrow (Text.tidy_spaced _ _ (single output visible) moved)
  have whole := Text.tidy_spaced _ _ (number source isSource)
    (Text.tidy_spaced _ _ (Text.tidy_solid inputs solid filled) written)
  have arrow : (" -> " : Text) = CodePoint.ofChar ' ' :: "->" ++ " " := rfl
  simpa [arrow, Text.ofString] using whole

end Line

end TapeMachine
