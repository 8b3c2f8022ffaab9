import TapeMachine.Proofs.PoolHistory

set_option autoImplicit false

namespace TapeMachine

open WordResult

/-- The lines of results that did not fail. -/
def finishedLines (lines : List Text) : List Text := lines.filter fun line => (finishedInput? line).isSome

theorem finished_input_kept (result : WordResult) (kept : result.Kept) :
    finishedInput? result.toJson.compact = result.entry?.map Entry.input := by
  cases result with
  | decided entry => exact finished_input_decided entry kept
  | failed input fault => exact finished_input_failed input fault kept

def WordResult.finished (results : List WordResult) : List WordResult :=
  results.filter fun result => result.entry?.isSome

def WordResult.lines (results : List WordResult) : List Text := results.map fun result => result.toJson.compact

theorem finished_lines_append (xs ys : List WordResult) :
    finishedLines (lines (xs ++ ys)) = finishedLines (lines xs) ++ finishedLines (lines ys) := by
  rw [lines, List.map_append, finishedLines, List.filter_append]
  rfl

theorem finished_lines_kept (results : List WordResult) (kept : ∀ result ∈ results, result.Kept) :
    finishedLines (lines results) = lines (finished results) := by
  rw [finishedLines, lines, lines, finished, List.filter_map]
  congr 1
  apply List.filter_congr
  intro result mem
  rw [Function.comp_apply, finished_input_kept result (kept result mem), Option.isSome_map]

namespace PoolRun

variable (run : PoolRun) (d : Definition)

theorem heard_filter [Screen] (clean : d.Clean) (p : Text → Bool) (words : List Text)
    (scalar : ∀ word ∈ words, word.Scalar)
    (results : List WordResult) (heard : words.mapM (run.heard d) = .ok results) :
    (words.filter p).mapM (run.heard d) = .ok (results.filter fun result => p result.input) := by
  induction words generalizing results with
  | nil =>
      cases heard
      rfl
  | cons word rest ih =>
      obtain ⟨here, others⟩ := List.forall_mem_cons.mp scalar
      rw [List.mapM_cons] at heard
      obtain ⟨result, first, heard⟩ := (bind_ok _ _ _).mp heard
      obtain ⟨later, after, heard⟩ := (bind_ok _ _ _).mp heard
      obtain rfl := Except.ok.inj heard
      have same : result.input = word :=
        (report_scalar run d clean word result (run.heard_ok d word result first) here).2
      cases taken : p word with
      | true =>
          rw [List.filter_cons_of_pos taken, List.filter_cons_of_pos (by rwa [same]), List.mapM_cons, first,
            ih others later after]
          rfl
      | false =>
          rw [List.filter_cons_of_neg (by simp [taken]), List.filter_cons_of_neg (by simp [same, taken]),
            ih others later after]

def open? (first : List WordResult) (result : WordResult) : Bool := !(inputs first).contains result.input

theorem finished_input (results : List WordResult) (result : WordResult) (mem : result ∈ finished results) :
    result.input ∈ inputs results ∧ result.entry?.map Entry.input = some result.input := by
  obtain ⟨listed, decided⟩ := List.mem_filter.mp mem
  cases result with
  | failed input fault => cases decided
  | decided entry => exact ⟨(mem_inputs results entry.input).mpr ⟨entry, listed, rfl⟩, rfl⟩

@[simp] theorem finished_open (first : List WordResult) : finished (first.filter (open? first)) = [] := by
  rw [finished, List.filter_filter, List.filter_eq_nil_iff]
  intro result mem
  cases done : result.entry?.isSome with
  | false => simp
  | true =>
      have named := (finished_input first result (List.mem_filter.mpr ⟨mem, done⟩)).1
      simp [open?, named]

theorem resumed_lines (first second : List WordResult) (kept : ∀ result ∈ first ++ second, result.Kept) :
    finishedLines (lines (first ++ (first ++ second).filter (open? first))) =
      finishedLines (lines first) ++ (finishedLines (lines second)).filter fun line =>
        (finishedInput? line).all fun input => !(finishedInputs (lines first)).contains input := by
  have kept_first : ∀ result ∈ first, result.Kept := fun result mem => kept result (List.mem_append_left second mem)
  have kept_second : ∀ result ∈ second, result.Kept := fun result mem => kept result (List.mem_append_right first mem)
  have kept_all : ∀ result ∈ first ++ (first ++ second).filter (open? first), result.Kept := by
    intro result mem
    rcases List.mem_append.mp mem with old | fresh
    · exact kept_first result old
    · exact kept result (List.mem_of_mem_filter fresh)
  have later : finished ((first ++ second).filter (open? first)) = (finished second).filter (open? first) := by
    rw [List.filter_append, finished, List.filter_append]
    change finished (first.filter (open? first)) ++ finished (second.filter (open? first)) = _
    rw [finished_open, List.nil_append, finished, finished, List.filter_comm]
  have named : finishedInputs (lines first) = inputs first := finished_inputs_lines first kept_first
  have joined (xs ys : List WordResult) : lines (finished (xs ++ ys)) = lines (finished xs) ++ lines (finished ys) := by
    rw [finished, List.filter_append, lines, List.map_append]
    rfl
  rw [finished_lines_kept _ kept_all, finished_lines_kept first kept_first,
    finished_lines_kept second kept_second, joined, later, named]
  congr 1
  rw [lines, lines, List.filter_map]
  congr 1
  apply List.filter_congr
  intro result mem
  have done := finished_input second result mem
  rw [Function.comp_apply, finished_input_kept result (kept_second result (List.mem_of_mem_filter mem)), done.2]
  rfl

theorem resumed_lines_same (first second : List WordResult) (kept : ∀ result ∈ first ++ second, result.Kept)
    (once : (inputs (first ++ second)).Nodup) :
    finishedLines (lines (first ++ (first ++ second).filter (open? first))) = finishedLines
    (lines (first ++ second)) := by
  have kept_first : ∀ result ∈ first, result.Kept := fun result mem => kept result (List.mem_append_left second mem)
  have kept_second : ∀ result ∈ second, result.Kept := fun result mem => kept result (List.mem_append_right first mem)
  rw [inputs_append] at once
  rw [resumed_lines first second kept, finished_lines_append, List.append_cancel_left_eq, List.filter_eq_self]
  intro line mem
  rw [finished_lines_kept second kept_second] at mem
  obtain ⟨result, done, rfl⟩ := List.mem_map.mp mem
  obtain ⟨named, told⟩ := finished_input second result done
  have apart : result.input ∉ inputs first := fun early => List.disjoint_of_nodup_append once early named
  have known : finishedInputs (lines first) = inputs first := finished_inputs_lines first kept_first
  rw [finished_input_kept result (kept_second result (List.mem_of_mem_filter done)), told, known]
  simpa using apart

end PoolRun

end TapeMachine
