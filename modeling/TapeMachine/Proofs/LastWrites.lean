import Mathlib.Data.Set.Card
import TapeMachine.Proofs.TapeCells

set_option autoImplicit false

namespace TapeMachine

inductive Stroke where
  | write (address : Int) (symbol : Symbol)
  | clear
deriving DecidableEq

def TapeRequest.strokes : TapeRequest → List Stroke
  | .write address symbol => [.write address symbol]
  | .load symbols start => symbols.mapIdx fun i symbol => .write (start + i) symbol
  | .clear => [.clear]
  | _ => []

namespace Stroke

def symbolAt? (address : Int) : Stroke → Option Symbol
  | .write a symbol => if a = address then some symbol else none
  | .clear => none

def lastWrite? (strokes : List Stroke) (address : Int) : Option Symbol :=
  (strokes.reverse.takeWhile fun s => s ≠ .clear).findSome? (symbolAt? address)

def marked (blank : Symbol) (strokes : List Stroke) : Set Int :=
  {address | ∃ symbol, lastWrite? strokes address = some symbol ∧ symbol ≠ blank}

def callAt? (blank : Symbol) (strokes : List Stroke) (place : Nat) : Option Observation :=
  match strokes[place]? with
  | some (.write address symbol) => some (.wrote address ((lastWrite? (strokes.take place) address).getD blank) symbol)
  | _ => none

def calls (blank : Symbol) (strokes : List Stroke) : List Observation :=
  (List.range strokes.length).filterMap (callAt? blank strokes)

theorem last_write_snoc_write (strokes : List Stroke) (address query : Int) (symbol : Symbol) :
    lastWrite? (strokes ++ [.write address symbol]) query =
      if query = address then some symbol else lastWrite? strokes query := by
  by_cases here : query = address
  · simp [lastWrite?, symbolAt?, here]
  · simp [lastWrite?, symbolAt?, here, Ne.symm here]

@[simp] theorem last_write_snoc_clear (strokes : List Stroke) (query : Int) :
    lastWrite? (strokes ++ [.clear]) query = none := by
  simp [lastWrite?]

theorem call_at_before (blank : Symbol) (strokes : List Stroke) (s : Stroke) (place : Nat)
    (before : place < strokes.length) :
    callAt? blank (strokes ++ [s]) place = callAt? blank strokes place := by
  rw [callAt?, callAt?, List.getElem?_append_left before, List.take_append_of_le_length (Nat.le_of_lt before)]

theorem calls_snoc (blank : Symbol) (strokes : List Stroke) (s : Stroke) :
    calls blank (strokes ++ [s]) = calls blank strokes ++ (match s with
      | .write address symbol => [.wrote address ((lastWrite? strokes address).getD blank) symbol]
      | .clear => []) := by
  have earlier : (List.range strokes.length).filterMap (callAt? blank (strokes ++ [s])) = calls blank strokes := by
    apply List.filterMap_congr
    intro place listed
    exact call_at_before blank strokes s place (List.mem_range.mp listed)
  rw [calls, List.length_append, List.length_singleton, List.range_succ, List.filterMap_append, earlier]
  cases s <;> simp [callAt?]

end Stroke

namespace Tape

def strike (t : Tape) : Stroke → Tape
  | .write address symbol => t.write address symbol
  | .clear => t.clear

def performAll (t : Tape) (requests : List TapeRequest) : Tape :=
  requests.foldl (fun t request => (t.perform request).1) t

/-- The calls that come of requests, one after another. -/
def told (t : Tape) : List TapeRequest → List Observation
  | [] => []
  | request :: rest => (t.perform request).2.1 ++ told (t.perform request).1 rest

def overwritten (t : Tape) : List Stroke → List Observation
  | [] => []
  | .write address symbol :: rest => .wrote address (t.read address) symbol :: overwritten (t.write address symbol) rest
  | .clear :: rest => overwritten t.clear rest

theorem overwritten_append (t : Tape) (front back : List Stroke) :
    t.overwritten (front ++ back) = t.overwritten front ++ (front.foldl strike t).overwritten back := by
  induction front generalizing t with
  | nil => rfl
  | cons s rest ih =>
      cases s with
      | write address symbol => exact congrArg (_ :: ·) (ih (t.write address symbol))
      | clear => exact ih t.clear

theorem load_strokes (t : Tape) (start : Int) (symbols : List Symbol) :
    t.load start symbols = (TapeRequest.load symbols start).strokes.foldl strike t ∧
      t.loadings start symbols = t.overwritten (TapeRequest.load symbols start).strokes := by
  simp only [TapeRequest.strokes]
  induction symbols generalizing t start with
  | nil => exact ⟨rfl, rfl⟩
  | cons symbol rest ih =>
      have shifted (i : Nat) : start + ((i + 1 : Nat) : Int) = start + 1 + i := by omega
      obtain ⟨loaded, told⟩ := ih (t.write start symbol) (start + 1)
      simp only [List.mapIdx_cons, Int.natCast_zero, Int.add_zero, shifted]
      exact ⟨loaded, congrArg (_ :: ·) told⟩

theorem readings_read (t : Tape) (addresses : List Int) : (t.readings addresses).filter
    (fun o => o.kind = .write) = [] := by
  rw [List.filter_eq_nil_iff]
  intro o listed
  obtain ⟨address, _, rfl⟩ := List.mem_map.mp listed
  simp [Observation.kind]

theorem loadings_written (t : Tape) (start : Int) (symbols : List Symbol) :
    (t.loadings start symbols).filter (fun o => o.kind = .write) = t.loadings start symbols := by
  induction symbols generalizing t start with
  | nil => rfl
  | cons symbol rest ih =>
      rw [loadings, List.filter_cons_of_pos (by simp [Observation.kind]), ih]

theorem perform_strokes (t : Tape) (request : TapeRequest) :
    (t.perform request).1 = request.strokes.foldl strike t ∧
      (t.perform request).2.1.filter (fun o => o.kind = .write) = t.overwritten request.strokes := by
  cases request with
  | read address => exact ⟨rfl, readings_read t [address]⟩
  | write address symbol => exact ⟨rfl, loadings_written t address [symbol]⟩
  | used => exact ⟨rfl, rfl⟩
  | bounds => exact ⟨rfl, rfl⟩
  | dense => exact ⟨rfl, readings_read t t.denseAddresses⟩
  | window center radius => exact ⟨rfl, readings_read t (windowAddresses center radius)⟩
  | load symbols start =>
      obtain ⟨loaded, told⟩ := load_strokes t start symbols
      exact ⟨loaded, (loadings_written t start symbols).trans told⟩
  | clear => exact ⟨rfl, rfl⟩
  | describe => exact ⟨rfl, rfl⟩

theorem perform_all_strokes (t : Tape) (requests : List TapeRequest) :
    t.performAll requests = (requests.flatMap TapeRequest.strokes).foldl strike t ∧
      (t.told requests).filter (fun o => o.kind = .write) = t.overwritten (requests.flatMap TapeRequest.strokes) := by
  induction requests generalizing t with
  | nil => exact ⟨rfl, rfl⟩
  | cons request rest ih =>
      obtain ⟨struck, written⟩ := perform_strokes t request
      obtain ⟨later, writtenLater⟩ := ih (t.perform request).1
      refine ⟨?_, ?_⟩
      · rw [List.flatMap_cons, List.foldl_append, ← struck, ← later]
        rfl
      · rw [told, List.filter_append, List.flatMap_cons, overwritten_append, ← struck, written, writtenLater]

theorem struck_cells (blank : Symbol) (strokes : List Stroke) :
    (strokes.foldl strike ⟨blank, ∅⟩).blank = blank ∧
      ∀ address : Int, (strokes.foldl strike ⟨blank, ∅⟩).cells[address]? =
        if Stroke.lastWrite? strokes address = some blank then none else Stroke.lastWrite? strokes address := by
  induction strokes using List.reverseRecOn with
  | nil =>
      refine ⟨rfl, ?_⟩
      intro address
      exact Std.TreeMap.getElem?_emptyc
  | append_singleton strokes s ih =>
      obtain ⟨same, cells⟩ := ih
      rw [List.foldl_append, List.foldl_cons, List.foldl_nil]
      cases s with
      | write address symbol =>
          refine ⟨(write_blank _ address symbol).trans same, ?_⟩
          intro query
          rw [strike, cells_write, cells, same, Stroke.last_write_snoc_write]
          by_cases here : query = address
          · by_cases empty : symbol = blank <;> simp [here, empty]
          · simp only [if_neg here]
      | clear =>
          refine ⟨same, ?_⟩
          intro query
          rw [Stroke.last_write_snoc_clear]
          exact Std.TreeMap.getElem?_emptyc

theorem struck_read (blank : Symbol) (strokes : List Stroke) (address : Int) :
    (strokes.foldl strike ⟨blank, ∅⟩).read address = (Stroke.lastWrite? strokes address).getD blank := by
  obtain ⟨same, cells⟩ := struck_cells blank strokes
  rw [read, same, cells]
  by_cases empty : Stroke.lastWrite? strokes address = some blank
  · rw [if_pos empty, empty]
    rfl
  · rw [if_neg empty]

theorem struck_sparse (blank : Symbol) (strokes : List Stroke) : (strokes.foldl strike ⟨blank, ∅⟩).Sparse := by
  obtain ⟨same, cells⟩ := struck_cells blank strokes
  intro address
  rw [same, cells]
  by_cases empty : Stroke.lastWrite? strokes address = some blank
  · simp [empty]
  · rwa [if_neg empty]

theorem struck_marked (blank : Symbol) (strokes : List Stroke) :
    {address | address ∈ (strokes.foldl strike ⟨blank, ∅⟩).cells} = Stroke.marked blank strokes := by
  ext address
  have kept := (struck_cells blank strokes).2 address
  simp only [Set.mem_ofPred_eq, Std.TreeMap.mem_iff_isSome_getElem?, kept, Stroke.marked]
  cases Stroke.lastWrite? strokes address with
  | none => simp
  | some symbol => by_cases empty : symbol = blank <;> simp [empty]

theorem struck_overwritten (blank : Symbol) (strokes : List Stroke) :
    (Tape.mk blank ∅).overwritten strokes = Stroke.calls blank strokes := by
  induction strokes using List.reverseRecOn with
  | nil => rfl
  | append_singleton strokes s ih =>
      rw [overwritten_append, ih, Stroke.calls_snoc]
      cases s with
      | write address symbol => rw [overwritten, struck_read, overwritten]
      | clear => rfl

theorem used_count (t : Tape) :
    {address | address ∈ t.cells}.Finite ∧ t.used = {address | address ∈ t.cells}.ncard := by
  have listed : {address | address ∈ t.cells} = (t.cells.keys.toFinset : Set Int) := by
    ext address
    simp
  rw [listed]
  refine ⟨Finset.finite_toSet _, ?_⟩
  rw [Set.ncard_coe_finset, List.toFinset_card_of_nodup Std.TreeMap.nodup_keys, Std.TreeMap.length_keys, used]

@[simp] theorem addresses_length (low high : Int) : (addresses low high).length = (high - low + 1).toNat := by
  simp [addresses]

theorem addresses_at (low high : Int) (i : Nat) (within : i < (high - low + 1).toNat) :
    (addresses low high)[i]? = some (low + i) := by
  simp [addresses, within]

theorem bounds_iff (t : Tape) :
    (t.bounds = none ↔ {address | address ∈ t.cells} = ∅) ∧
      ∀ low high, t.bounds = some (low, high) ↔
        IsLeast {address | address ∈ t.cells} low ∧ IsGreatest {address | address ∈ t.cells} high := by
  rcases bounds_cases t with ⟨empty, vacant⟩ | ⟨low, high, bounded, least, greatest⟩
  · have nothing : {address | address ∈ t.cells} = ∅ := Set.eq_empty_of_forall_notMem vacant
    rw [empty, nothing]
    constructor
    · exact iff_of_true rfl rfl
    · intro low high
      exact iff_of_false (by simp) fun both => Set.notMem_empty low both.1.1
  · rw [bounded]
    constructor
    · apply iff_of_false (by simp)
      intro nothing
      have kept : low ∈ {address | address ∈ t.cells} := least.1
      rw [nothing] at kept
      exact Set.notMem_empty low kept
    · intro low' high'
      constructor
      · intro same
        cases same
        exact ⟨least, greatest⟩
      · intro ⟨leastToo, greatestToo⟩
        rw [least.unique leastToo, greatest.unique greatestToo]

theorem dense_spans (t : Tape) (low high : Int) (sparse : t.Sparse) (bounded : t.bounds = some (low, high)) :
    (t.dense.length : Int) = high - low + 1 ∧
      (∃ first last, t.dense.head? = some first ∧ t.dense.getLast? = some last ∧ first ≠ t.blank ∧ last ≠ t.blank) ∧
      ∀ i < t.dense.length, t.dense[i]? = some (t.read (low + i)) := by
  obtain ⟨least, greatest⟩ := (t.bounds_iff.2 low high).mp bounded
  have ordered : low ≤ high := least.2 greatest.1
  have spelled : t.dense = (addresses low high).map t.read := by rw [dense, denseAddresses, bounded]
  have counted : t.dense.length = (high - low + 1).toNat := by rw [spelled, List.length_map, addresses_length]
  refine ⟨by omega, ?_, ?_⟩
  · rcases t.dense_ends sparse with empty | ends
    · rw [empty, List.length_nil] at counted
      omega
    · exact ends
  · intro i within
    rw [counted] at within
    rw [spelled, List.getElem?_map, addresses_at low high i within, Option.map_some]

theorem window_spans (t : Tape) (center : Int) (radius : Nat) :
    (t.window center radius).length = 2 * radius + 1 ∧
      ∀ i < 2 * radius + 1, (t.window center radius)[i]? = some (t.read (center - radius + i)) := by
  have wide : (center + radius - (center - radius) + 1).toNat = 2 * radius + 1 := by omega
  constructor
  · rw [window, windowAddresses, List.length_map, addresses_length, wide]
  · intro i within
    rw [window, windowAddresses, List.getElem?_map, addresses_at _ _ i (wide.symm ▸ within), Option.map_some]

/-- After any requests a tape that began empty reads everywhere as the last write since the last
clearing, or as the blank. It keeps no blank, counts the addresses where that is not the blank and
is bounded by the least and the greatest of them; its dense part and its windows are what is read
there in turn. Each write tells what was read before it, and a request that comes to no stroke
leaves the tape as it is. -/
theorem tape_holds_last_writes (blank : Symbol) (requests : List TapeRequest) :
    let t := (Tape.mk blank ∅).performAll requests
    let strokes := requests.flatMap TapeRequest.strokes
    let marked := Stroke.marked blank strokes
    (∀ address, t.read address = (Stroke.lastWrite? strokes address).getD blank) ∧
    (∀ address : Int, t.cells[address]? ≠ some blank) ∧
    (marked.Finite ∧ t.used = marked.ncard) ∧
    (t.bounds = none ↔ marked = ∅) ∧
    (∀ low high, t.bounds = some (low, high) ↔ IsLeast marked low ∧ IsGreatest marked high) ∧
    (marked = ∅ → t.dense = []) ∧
    (∀ low high, IsLeast marked low → IsGreatest marked high →
      (t.dense.length : Int) = high - low + 1 ∧
      (∃ first last, t.dense.head? = some first ∧ t.dense.getLast? = some last ∧ first ≠ blank ∧ last ≠ blank) ∧
      ∀ i < t.dense.length, t.dense[i]? = some (t.read (low + i))) ∧
    (∀ (center : Int) (radius : Nat), (t.window center radius).length = 2 * radius + 1 ∧
      ∀ i < 2 * radius + 1, (t.window center radius)[i]? = some (t.read (center - radius + i))) ∧
    ((Tape.mk blank ∅).told requests).filter (fun o => o.kind = .write) = Stroke.calls blank strokes ∧
    ∀ request : TapeRequest, request.strokes = [] → (t.perform request).1 = t := by
  intro t strokes marked
  obtain ⟨performed, written⟩ := (Tape.mk blank ∅).perform_all_strokes requests
  have struck : t = strokes.foldl strike ⟨blank, ∅⟩ := performed
  have base : t.blank = blank := by rw [struck, (struck_cells blank strokes).1]
  have sparse : t.Sparse := by
    rw [struck]
    exact struck_sparse blank strokes
  have kept : {address | address ∈ t.cells} = marked := by rw [struck, struck_marked]
  obtain ⟨unbounded, bounded⟩ := t.bounds_iff
  have counted := t.used_count
  rw [kept] at unbounded counted
  simp only [kept] at bounded
  refine ⟨?_, base ▸ sparse, counted, unbounded, bounded, ?_, ?_, t.window_spans,
    written.trans (struck_overwritten blank strokes), ?_⟩
  · intro address
    rw [struck, struck_read]
  · intro nothing
    rw [dense, denseAddresses, unbounded.mpr nothing, List.map_nil]
  · intro low high least greatest
    have spans := t.dense_spans low high sparse ((bounded low high).mpr ⟨least, greatest⟩)
    rwa [base] at spans
  · intro request idle
    rw [(t.perform_strokes request).1, idle, List.foldl_nil]

theorem overwritten_tape_holds_last_writes :
    let requests : List TapeRequest :=
  [.load [.text "x", .text "y"] (-7), .clear, .load [.text "a", .text "b", .text "c"] (-1),
      .write 0 (.text "_"), .dense, .write 4 (.text "_"), .write (-3) (.text "d")]
    let t := (Tape.mk (.text "_") ∅).performAll requests
    let marked := Stroke.marked (.text "_") (requests.flatMap TapeRequest.strokes)
    IsLeast marked (-3) ∧ IsGreatest marked 1 ∧ marked.ncard = 3 ∧ t.read (-7) = .text "_" ∧ t.dense.length = 5 ∧
      t.dense[2]? = some (t.read (-1)) ∧ TapeRequest.dense.strokes = [] ∧ (t.perform .dense).1 = t ∧
      Observation.wrote 0 (.text "b") (.text "_") ∈ ((Tape.mk (.text "_") ∅).told requests).filter fun o =>
        o.kind = .write := by
  intro requests t marked
  obtain ⟨reads, _, ⟨_, counted⟩, _, bounded, _, spans, _, written, idle⟩ := tape_holds_last_writes (.text "_") requests
  obtain ⟨least, greatest⟩ := (bounded (-3) 1).mp rfl
  obtain ⟨long, _, each⟩ := spans (-3) 1 least greatest
  have five : t.dense.length = 5 := Int.ofNat_inj.mp long
  refine ⟨least, greatest, counted.symm, reads (-7), five, ?_, rfl, idle .dense rfl, ?_⟩
  · exact each 2 (five.symm ▸ by decide)
  · rw [written]
    decide

end Tape

end TapeMachine
