import TapeMachine.Machine.Bench

set_option autoImplicit false

namespace TapeMachine

/-- A request to the machine at a place of a bench. -/
structure Errand where
  place : Nat
  request : Request

namespace Station

def record (c : Configuration) : Station → List Request → List (Station × Except MachineFault Reply)
  | _, [] => []
  | s, request :: rest => s.perform c request :: record c (s.perform c request).1 rest

def performAll (c : Configuration) (s : Station) (requests : List Request) : Station :=
  requests.foldl (fun s request => (s.perform c request).1) s

end Station

namespace Bench

def performAll (b : Bench) (errands : List Errand) : Bench :=
  errands.foldl (fun b e => (b.perform e.place e.request).1) b

def seenAt (place : Nat) (b : Bench) (e : Errand) : Option (Station × Except MachineFault Reply) :=
  if e.place = place then
    let (after, reply) := b.perform e.place e.request
    (after.stations[place]?).bind fun s => reply.map fun r => (s, r)
  else none

def recordAt (place : Nat) : Bench → List Errand → List (Station × Except MachineFault Reply)
  | _, [] => []
  | b, e :: rest => (b.seenAt place e).toList ++ recordAt place (b.perform e.place e.request).1 rest

/-- The errands to one place, in their order. -/
def ownErrands (place : Nat) (errands : List Errand) : List Errand := errands.filter fun e => e.place = place

variable (b : Bench) (place : Nat)

@[simp] theorem perform_configuration (target : Nat) (request : Request) :
    (b.perform target request).1.configuration = b.configuration := by
  rw [perform]
  split <;> rfl

theorem perform_stations (target : Nat) (request : Request) :
    (b.perform target request).1.stations[place]? =
      if target = place then
      (b.stations[place]?).map fun s => (s.perform b.configuration request).1 else b.stations[place]? := by
  by_cases here : target = place
  · subst here
    rw [if_pos rfl, perform]
    cases found : b.stations[target]? with
    | none => simp only [found, Option.map_none]
    | some s =>
        obtain ⟨within, _⟩ := List.getElem?_eq_some_iff.mp found
        simp [within]
  · rw [if_neg here, perform]
    cases b.stations[target]? with
    | none => rfl
    | some s => exact List.getElem?_set_ne here

theorem perform_reply (request : Request) :
    (b.perform place request).2 = (b.stations[place]?).map fun s => (s.perform b.configuration request).2 := by
  rw [perform]
  cases b.stations[place]? <;> rfl

theorem seen_at_station (e : Errand) : b.seenAt place e =
    if e.place = place then (b.stations[place]?).map fun s => s.perform b.configuration e.request else none := by
  rw [seenAt]
  by_cases here : e.place = place
  · subst here
    have after := b.perform_stations e.place e.place e.request
    rw [if_pos rfl] at after
    simp only [if_true, after, perform_reply]
    cases b.stations[e.place]? <;> rfl
  · rw [if_neg here, if_neg here]

@[simp] theorem perform_all_configuration (errands : List Errand) :
    (b.performAll errands).configuration = b.configuration := by
  induction errands generalizing b with
  | nil => rfl
  | cons e rest ih => exact (ih (b.perform e.place e.request).1).trans (b.perform_configuration e.place e.request)

theorem own_errands_cons (e : Errand) (rest : List Errand) :
    ownErrands place (e :: rest) = if e.place = place then e :: ownErrands place rest else ownErrands place rest := by
  by_cases here : e.place = place <;> simp [ownErrands, here]

@[simp] theorem own_errands_twice (errands : List Errand) :
    ownErrands place (ownErrands place errands) = ownErrands place errands := by
  simp [ownErrands]

theorem perform_all_stations (errands : List Errand) : (b.performAll errands).stations[place]? =
    (b.stations[place]?).map fun s => s.performAll b.configuration ((ownErrands place errands).map Errand.request) := by
  -- On the errands, for every bench: an errand elsewhere leaves this station and the control as they are.
  induction errands generalizing b with
  | nil => exact (Option.map_id_apply).symm
  | cons e rest ih =>
      have later := ih (b.perform e.place e.request).1
      rw [perform_configuration, perform_stations] at later
      rw [own_errands_cons]
      by_cases here : e.place = place
      · rw [if_pos here, Option.map_map] at later
        rw [if_pos here]
        exact later
      · rw [if_neg here] at later
        rw [if_neg here]
        exact later

theorem record_at_station (errands : List Errand) : b.recordAt place errands =
    ((b.stations[place]?).map fun s => s.record b.configuration
      ((ownErrands place errands).map Errand.request)).getD [] := by
  induction errands generalizing b with
  | nil => cases b.stations[place]? <;> rfl
  | cons e rest ih =>
      rw [recordAt, seen_at_station, ih, perform_configuration, perform_stations, own_errands_cons]
      by_cases here : e.place = place
      · rw [if_pos here, if_pos here, if_pos here]
        cases b.stations[place]? <;> rfl
      · rw [if_neg here, if_neg here, if_neg here]
        rfl

/-- No machine on a bench is in the way of another: the configuration is the same after every
request, and what is seen of a machine, its replies, its states and its log, is what is seen when
only its own requests are made, in their order. -/
theorem machines_share_without_interference (errands : List Errand) :
    (∀ n, (b.performAll (errands.take n)).configuration = b.configuration) ∧
    ∀ place, let own := ownErrands place errands
      b.recordAt place errands = b.recordAt place own ∧
      (∀ n, (b.performAll (errands.take n)).stations[place]? =
        (b.performAll (ownErrands place (errands.take n))).stations[place]?) ∧
      b.recordAt place own =
        ((b.stations[place]?).map fun s => s.record b.configuration (own.map Errand.request)).getD [] := by
  refine ⟨fun n => b.perform_all_configuration (errands.take n), ?_⟩
  intro place own
  have alone : b.recordAt place own =
      ((b.stations[place]?).map fun s => s.record b.configuration (own.map Errand.request)).getD [] := by
    rw [record_at_station, own_errands_twice]
  refine ⟨?_, ?_, alone⟩
  · rw [alone]
    exact b.record_at_station place errands
  · intro n
    rw [perform_all_stations, perform_all_stations, own_errands_twice]

end Bench

end TapeMachine
