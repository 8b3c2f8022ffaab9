import TapeMachine.Session
import TapeMachine.Proofs.Outcome
import TapeMachine.Proofs.StorePlaces

set_option autoImplicit false

namespace TapeMachine

namespace Session

variable (s : Session)

def shown (p : Print) : Session := { s with printed := s.printed ++ [p] }

abbrev told (t : Text) : Session := s.shown (.text t)

def warned (t : Text) : Session := { s with warnings := s.warnings ++ [t] }

@[simp] theorem shown_store (p : Print) : (s.shown p).store = s.store := rfl

end Session

/-- The fault of a text that the screen refused, in which there are tags. -/
inductive Fault.Refused [Screen] : Fault → Prop where
  | refused (t message : Text) (failed : Screen.refuses t = some message) (tagged : ¬ Screen.Tame t) :
      Refused (.markup t message)

namespace Screen

variable [Screen]

theorem refused_fault (lawful : Screen.Lawful) (t message : Text) (failed : refuses t = some message) :
    Fault.Refused (.markup t message) := by
  refine .refused t message failed fun tame => ?_
  rw [lawful.tame t tame] at failed
  cases failed

theorem takes_single (t : Text) : takes [t] = match refuses t with
    | none => .ok ()
    | some message => .error (.markup t message) := by
  rw [takes]
  cases refuses t <;> rfl

theorem takes_single_ok (t : Text) : takes [t] = .ok () ↔ refuses t = none := by
  rw [takes_single]
  cases refuses t <;> simp

theorem takes_all (ts : List Text) (taken : ∀ t ∈ ts, refuses t = none) : takes ts = .ok () := by
  induction ts with
  | nil => rfl
  | cons t rest ih =>
      obtain ⟨first, others⟩ := List.forall_mem_cons.mp taken
      rw [takes, first]
      exact ih others

theorem takes_refused (ts : List Text) (fault : Fault) (failed : takes ts = .error fault) :
    ∃ t ∈ ts, ∃ message, fault = .markup t message ∧ refuses t = some message := by
  induction ts with
  | nil => cases failed
  | cons t rest ih =>
      rw [takes] at failed
      cases first : refuses t with
      | none =>
          rw [first] at failed
          obtain ⟨u, mem, found⟩ := ih failed
          exact ⟨u, List.mem_cons_of_mem t mem, found⟩
      | some message =>
          rw [first] at failed
          cases failed
          exact ⟨t, List.mem_cons_self, message, rfl, first⟩

end Screen

namespace Job

variable {α β : Type} (s s' : Session)

@[simp] theorem run_pure (a : α) : (pure a : Job α).runIn s = (.ok a, s) := rfl

theorem run_bind (job : Job α) (next : α → Job β) : (job >>= next).runIn s =
    match job.runIn s with
    | (.ok a, t) => (next a).runIn t
    | (.error fault, t) => (.error fault, t) := by
  have unfolded : (job >>= next).runIn s = (ExceptT.bindCont next (job.runIn s).1).run (job.runIn s).2 := rfl
  rw [unfolded]
  cases job.runIn s with
  | mk outcome t => cases outcome <;> rfl

theorem run_catch (job : Job α) (handle : Fault → Job α) : (tryCatch job handle : Job α).runIn s =
    match job.runIn s with
    | (.ok a, t) => (.ok a, t)
    | (.error fault, t) => (handle fault).runIn t := by
  change StateT.run (ExceptT.run (ExceptT.tryCatch job handle)) s = _
  rw [ExceptT.tryCatch, ExceptT.run_mk, StateT.run_bind]
  change (bind (job.runIn s) _ : Id _) = _
  cases job.runIn s with
  | mk outcome t => cases outcome <;> rfl

@[simp] theorem run_lift (result : Except Fault α) : (lift result).runIn s = (result, s) := by cases result <;> rfl

theorem bind_run_ok (job : Job α) (next : α → Job β) (b : β) :
    (job >>= next).runIn s = (.ok b, s') ↔ ∃ a t, job.runIn s = (.ok a, t) ∧ (next a).runIn t = (.ok b, s') := by
  rw [run_bind]
  cases ran : job.runIn s with
  | mk outcome t =>
      cases outcome with
      | error fault => simp
      | ok a =>
          constructor
          · intro rest
            exact ⟨a, t, rfl, rest⟩
          · rintro ⟨a', t', same, rest⟩
            cases same
            exact rest

theorem run_bind_ok (job : Job α) (next : α → Job β) (a : α) (ran : job.runIn s = (.ok a, s')) :
    (job >>= next).runIn s = (next a).runIn s' := by rw [run_bind, ran]

theorem run_bind_error (job : Job α) (next : α → Job β) (fault : Fault) (ran : job.runIn s = (.error fault, s')) :
    (job >>= next).runIn s = (.error fault, s') := by rw [run_bind, ran]

theorem run_forM_cons (job : α → Job Unit) (a : α) (rest : List α) (ran : (job a).runIn s = (.ok (), s')) :
    ((a :: rest).forM job).runIn s = (rest.forM job).runIn s' :=
  run_bind_ok s s' (job a) (fun _ => rest.forM job) () ran

theorem run_return (job : Job α) (f : α → β) :
    (do return f (← job) : Job β).runIn s = ((job.runIn s).1.map f, (job.runIn s).2) := by
  rw [run_bind]
  cases job.runIn s with
  | mk outcome t => cases outcome <;> rfl

theorem bind_run_cases (job : Job α) (next : α → Job β) (outcome : Except Fault β)
    (ran : (job >>= next).runIn s = (outcome, s')) :
    (∃ fault, job.runIn s = (.error fault, s') ∧ outcome = .error fault) ∨
      ∃ a t, job.runIn s = (.ok a, t) ∧ (next a).runIn t = (outcome, s') := by
  rw [run_bind] at ran
  cases first : job.runIn s with
  | mk result t =>
      rw [first] at ran
      cases result with
      | ok a => exact .inr ⟨a, t, rfl, ran⟩
      | error fault =>
          cases ran
          exact .inl ⟨fault, rfl, rfl⟩

theorem run_result (ran : Except Fault α × Session) (a : α) (result : ran.1.toOption = some a) :
    ran = (.ok a, ran.2) := by
  rw [← (to_option_ok ran.1 a).mp result]

section Printing

variable [Screen]

theorem run_print (p : Print) : (print p).runIn s = match Screen.takes p.markup with
    | .ok _ => (.ok (), s.shown p)
    | .error fault => (.error fault, s) := by
  rw [print, run_bind, run_lift]
  cases Screen.takes p.markup <;> rfl

theorem run_warn (t : Text) : (warn t).runIn s = match Screen.takes [t] with
    | .ok _ => (.ok (), s.warned t)
    | .error fault => (.error fault, s) := by
  rw [warn, run_bind, run_lift]
  cases Screen.takes [t] <;> rfl

theorem run_print_taken (p : Print) (taken : ∀ t ∈ p.markup, Screen.refuses t = none) :
    (print p).runIn s = (.ok (), s.shown p) := by
  rw [run_print, Screen.takes_all _ taken]

theorem run_say (t : Text) (taken : Screen.refuses t = none) : (say t).runIn s = (.ok (), s.told t) :=
  run_print_taken s (.text t) (by simpa [Print.markup] using taken)

theorem run_say_refused (t message : Text) (refused : Screen.refuses t = some message) :
    (say t).runIn s = (.error (.markup t message), s) := by
  rw [say, run_print, Print.markup, Screen.takes_single, refused]

theorem print_cases (p : Print) : (print p).runIn s = (.ok (), s.shown p) ∨
    ∃ t ∈ p.markup, ∃ message, Screen.refuses t = some message ∧
      (print p).runIn s = (.error (.markup t message), s) := by
  rw [run_print]
  cases taken : Screen.takes p.markup with
  | ok _ => exact .inl rfl
  | error fault =>
      obtain ⟨t, mem, message, rfl, refused⟩ := Screen.takes_refused _ fault taken
      exact .inr ⟨t, mem, message, refused, rfl⟩

theorem say_cases (t : Text) : (say t).runIn s = (.ok (), s.told t) ∨
    ∃ message, Screen.refuses t = some message ∧ (say t).runIn s = (.error (.markup t message), s) := by
  cases taken : Screen.refuses t with
  | none => exact .inl (run_say s t taken)
  | some message => exact .inr ⟨message, rfl, run_say_refused s t message taken⟩

theorem print_same_store (p : Print) (s' : Session) (outcome : Except Fault Unit)
    (ran : (print p).runIn s = (outcome, s')) :
    s'.store = s.store := by
  rcases print_cases s p with shown | ⟨_, _, _, _, failed⟩
  · rw [shown] at ran
    cases ran
    rfl
  · rw [failed] at ran
    cases ran
    rfl

theorem say_taken (t : Text) (s' : Session) (ran : (say t).runIn s = (.ok (), s')) : Screen.refuses t = none := by
  cases taken : Screen.refuses t with
  | none => rfl
  | some message =>
      rw [run_say_refused s t message taken] at ran
      cases ran

theorem say_ran (t : Text) (s' : Session) (ran : (say t).runIn s = (.ok (), s')) : s' = s.told t := by
  rcases say_cases s t with shown | ⟨_, _, failed⟩
  · rw [shown] at ran
    cases ran
    rfl
  · rw [failed] at ran
    cases ran

end Printing

theorem run_change (change : Store → Except StoreFault Store) : (changeStore change).runIn s =
    match change s.store with
    | .ok store => (.ok (), { s with store })
    | .error fault => (.error (.store fault), s) := by
  have unfolded : (changeStore change).runIn s = Job.runIn s (match change s.store with
    | .ok store => modify fun s => { s with store }
    | .error fault => throw (.store fault)) := rfl
  rw [unfolded]
  cases change s.store <;> rfl

theorem run_append (path t : Text) (bytes : Bytes) (written : Utf8.encode t = some bytes) :
    (appendText path t).runIn s = (changeStore (·.append path bytes)).runIn s := by
  rw [appendText, written]

theorem run_read (path : Text) : (readBytes path).runIn s =
    match s.store.read path with
    | .ok bytes => (.ok bytes, s)
    | .error fault => (.error (.store fault), s) := by
  have unfolded : (readBytes path).runIn s = Job.runIn s (match s.store.read path with
    | .ok bytes => (return bytes : Job Bytes)
    | .error fault => throw (.store fault)) := rfl
  rw [unfolded]
  cases s.store.read path <;> rfl

theorem run_find (path : Text) : (find? path).runIn s =
    match s.store.find? path with
    | .ok found => (.ok found, s)
    | .error fault => (.error (.store fault), s) := by
  have unfolded : (find? path).runIn s = Job.runIn s (match s.store.find? path with
    | .ok found => (return found : Job Bool)
    | .error fault => throw (.store fault)) := rfl
  rw [unfolded]
  cases s.store.find? path <;> rfl

def Keeps (r : Session → Session → Prop) (job : Job α) : Prop := ∀ s, r s (job.runIn s).2

section Keeping

variable (r : Session → Session → Prop)

theorem keeps_bind (joins : ∀ a b c, r a b → r b c → r a c) (job : Job α) (next : α → Job β) (first : job.Keeps r)
    (second : ∀ a, (next a).Keeps r) : (job >>= next).Keeps r := by
  intro s
  have before := first s
  rw [run_bind]
  cases ran : job.runIn s with
  | mk outcome t =>
      rw [ran] at before
      cases outcome with
      | ok a => exact joins s t _ before (second a t)
      | error fault => exact before

theorem keeps_pure (stays : ∀ a, r a a) (a : α) : (pure a : Job α).Keeps r := fun s => stays s

theorem keeps_throw (stays : ∀ a, r a a) (fault : Fault) : (throw fault : Job α).Keeps r := fun s => stays s

theorem keeps_lift (stays : ∀ a, r a a) (result : Except Fault α) : (lift result).Keeps r := by
  intro s
  rw [run_lift]
  exact stays s

theorem keeps_forM (joins : ∀ a b c, r a b → r b c → r a c) (stays : ∀ a, r a a) (items : List α) (job : α → Job Unit)
    (each : ∀ a, (job a).Keeps r) : (items.forM job).Keeps r := by
  induction items with
  | nil => exact keeps_pure r stays ()
  | cons a rest ih => exact keeps_bind r joins (job a) (fun _ => rest.forM job) (each a) fun _ => ih

theorem keeps_mapM (joins : ∀ a b c, r a b → r b c → r a c) (stays : ∀ a, r a a) (items : List α) (job : α → Job β)
    (each : ∀ a, (job a).Keeps r) : (items.mapM job).Keeps r := by
  induction items with
  | nil => exact keeps_pure r stays []
  | cons a rest ih =>
      rw [List.mapM_cons]
      refine keeps_bind r joins (job a) _ (each a) fun b => ?_
      exact keeps_bind r joins (rest.mapM job) _ ih fun bs => keeps_pure r stays (b :: bs)

end Keeping

end Job

end TapeMachine
