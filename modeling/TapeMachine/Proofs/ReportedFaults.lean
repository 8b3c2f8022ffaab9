import TapeMachine.Command.Menu
import TapeMachine.Proofs.JobRuns

set_option autoImplicit false

namespace TapeMachine

def Fault.Reported (fault : Fault) : Prop := Command.isReported fault.kind = true

/-- The faults that are reported, and those of reporting. -/
def Fault.Ordinary [Screen] (fault : Fault) : Prop := fault.Reported ∨ fault.Refused

namespace Fault

theorem store_reported (fault : StoreFault) : (Fault.store fault).Reported := by cases fault <;> rfl

theorem source_reported (fault : SourceFault) : (Fault.source fault).Reported := by cases fault <;> rfl

theorem base64_reported (fault : Base64Fault) : (Fault.base64 fault).Reported := by cases fault <;> rfl

end Fault

namespace Job

variable {α β : Type}

def Only (faults : Fault → Prop) (job : Job α) : Prop := ∀ s fault t, job.runIn s = (.error fault, t) → faults fault

section Rules

variable (faults : Fault → Prop)

theorem only_pure (a : α) : (pure a : Job α).Only faults := by
  intro s fault t ran
  cases ran

theorem only_throw (fault : Fault) (holds : faults fault) : (throw fault : Job α).Only faults := by
  intro s other t ran
  cases ran
  exact holds

theorem only_lift (result : Except Fault α) (holds : ∀ fault, result = .error fault → faults fault) :
    (lift result).Only faults := by
  intro s fault t ran
  rw [run_lift] at ran
  exact holds fault (Prod.mk.inj ran).1

theorem only_mapped {ε : Type} (result : Except ε α) (wrap : ε → Fault)
    (holds : ∀ e, result = .error e → faults (wrap e)) :
    (lift (result.mapError wrap)).Only faults := only_lift faults _ fun fault failed => by
  obtain ⟨e, cause, rfl⟩ := (map_error_error _ _ fault).mp failed
  exact holds e cause

theorem only_or (job : Job α) (next : α → Job β) (first : job.Only faults) (s t : Session) (fault : Fault)
    (ran : (job >>= next).runIn s = (.error fault, t)) :
    faults fault ∨ ∃ a u, job.runIn s = (.ok a, u) ∧ (next a).runIn u = (.error fault, t) := by
  rcases bind_run_cases _ _ _ _ _ ran with ⟨_, failed, same⟩ | rest
  · cases same
    exact .inl (first s fault t failed)
  · exact .inr rest

theorem only_bind (job : Job α) (next : α → Job β) (first : job.Only faults) (second : ∀ a, (next a).Only faults) :
    (job >>= next).Only faults := by
  intro s fault t ran
  rcases only_or faults job next first s t fault ran with here | ⟨a, u, _, rest⟩
  · exact here
  · exact second a u fault t rest

theorem only_forM (items : List α) (job : α → Job Unit) (each : ∀ a, (job a).Only faults) :
    (items.forM job).Only faults := by
  induction items with
  | nil => exact only_pure faults ()
  | cons a rest ih => exact only_bind faults (job a) (fun _ => rest.forM job) (each a) fun _ => ih

theorem only_more (more : Fault → Prop) (job : Job α) (only : job.Only faults)
    (within : ∀ fault, faults fault → more fault) :
    job.Only more := fun s fault t ran => within fault (only s fault t ran)

theorem print_only [Screen] (p : Print)
    (markup : ∀ t ∈ p.markup, ∀ message, Screen.refuses t = some message → faults (.markup t message)) :
    (print p).Only faults := by
  intro s fault t ran
  rcases print_cases s p with shown | ⟨text, mem, message, refused, failed⟩
  · rw [shown] at ran
    cases ran
  · rw [failed] at ran
    cases ran
    exact markup text mem message refused

end Rules

section Ordinary

variable [Screen]

theorem reported_ordinary (job : Job α) (only : job.Only Fault.Reported) : job.Only Fault.Ordinary :=
  only_more _ _ job only fun _ => .inl

theorem print_ordinary (lawful : Screen.Lawful) (p : Print) : (print p).Only Fault.Ordinary :=
  print_only _ p fun t _ message failed => .inr (Screen.refused_fault lawful t message failed)

theorem say_ordinary (lawful : Screen.Lawful) (t : Text) : (say t).Only Fault.Ordinary :=
  print_ordinary lawful (.text t)

end Ordinary

theorem change_reported (change : Store → Except StoreFault Store) : (changeStore change).Only Fault.Reported := by
  intro s fault t ran
  rw [run_change] at ran
  split at ran
  · cases ran
  · cases ran
    exact Fault.store_reported _

section Reading

variable (faults : Fault → Prop) (store : ∀ fault, faults (.store fault)) (foreign : ∀ flaw, faults (.notUtf8 flaw))

include store

theorem read_bytes_only (path : Text) : (readBytes path).Only faults := by
  intro s fault t ran
  rw [run_read] at ran
  split at ran
  · cases ran
  · cases ran
    exact store _

include foreign

theorem read_text_only (path : Text) : (readText path).Only faults := by
  refine only_bind _ _ _ (read_bytes_only faults store path) fun bytes => ?_
  split
  · exact only_pure _ _
  · exact only_throw _ _ (foreign _)

end Reading

theorem read_bytes_reported (path : Text) : (readBytes path).Only Fault.Reported :=
  read_bytes_only _ Fault.store_reported path

theorem read_lines_reported (path : Text) : (readLines path).Only Fault.Reported := by
  refine only_bind _ _ _ (read_bytes_reported path) fun bytes => ?_
  split
  · exact only_pure _ _
  · exact only_throw _ _ rfl

theorem append_text_reported (path t : Text) : (appendText path t).Only Fault.Reported := by
  rw [appendText]
  split
  · exact change_reported _
  · exact only_bind _ _ _ (change_reported _) fun _ => only_throw _ _ rfl

theorem write_text_reported (path t : Text) : (writeText path t).Only Fault.Reported :=
  only_bind _ _ _ (change_reported _) fun _ => append_text_reported path t

end Job

open Job

namespace Definition

section Loading

variable (faults : Fault → Prop) (store : ∀ fault, faults (.store fault)) (foreign : ∀ flaw, faults (.notUtf8 flaw))
  (source : ∀ fault, faults (.source fault)) (base64 : ∀ fault, faults (.base64 fault))

include store foreign source

theorem load_lines_only (path : Path) : (loadLines path).Only faults :=
  only_bind _ _ _ (read_text_only faults store foreign _) fun _ => only_mapped _ _ _ fun cause _ => source cause

include base64

theorem load_only (path : Path) : (load path).Only faults := by
  rw [load]
  split
  · exact only_bind _ _ _ (read_bytes_only faults store _) fun _ => only_mapped _ _ _ fun cause _ =>
      base64 (.decode cause)
  · split
    · exact only_bind _ _ _ (read_text_only faults store foreign _) fun _ => only_mapped _ _ _
        fun cause _ => base64 cause
    · exact load_lines_only faults store foreign source path

end Loading

theorem load_lines_reported (path : Path) : (loadLines path).Only Fault.Reported :=
  load_lines_only _ Fault.store_reported (fun _ => rfl) Fault.source_reported path

theorem load_reported (path : Path) : (load path).Only Fault.Reported :=
  load_only _ Fault.store_reported (fun _ => rfl) Fault.source_reported Fault.base64_reported path

end Definition

theorem Pool.load_reported (path : Text) : (Pool.load path).Only Fault.Reported :=
  only_bind _ _ _ (read_lines_reported path) fun _ => only_pure _ _

theorem RunLog.append_lines_reported (path : Text) (entries : List Json) :
    (RunLog.appendLines path entries).Only Fault.Reported := by
  refine only_bind _ _ _ (append_text_reported path _) fun _ => ?_
  split
  · exact only_throw _ _ rfl
  · exact only_pure _ _

end TapeMachine
