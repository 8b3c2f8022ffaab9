import TapeMachine.StandIn
import TapeMachine.Proofs.BatchRuns
import TapeMachine.Proofs.FileText
import TapeMachine.Proofs.InspectionTexts
import TapeMachine.Proofs.MenuRounds
import TapeMachine.Proofs.TraceFaults

set_option autoImplicit false

namespace TapeMachine

open Job

inductive Unguarded : Fault → Prop where
  | notUtf8 (flaw : Utf8.Flaw) : Unguarded (.notUtf8 flaw)
  | longNumeral (digits : Nat) : Unguarded (.source (.longNumeral digits))
  | notAscii : Unguarded (.base64 .notAscii)
  | nullInPath : Unguarded (.store .nullInPath)
  | noForm (path : Text) : Unguarded (.store (.noForm path))

def Fault.Sorted (fault : Fault) : Prop := fault.kind.isReading = true ∨ Unguarded fault

theorem Definition.load_sorted (path : Path) : (Definition.load path).Only Fault.Sorted := by
  apply Definition.load_only
  · intro fault
    cases fault with
    | nullInPath => exact .inr .nullInPath
    | noForm path => exact .inr (.noForm path)
    | _ => exact .inl rfl
  · exact fun flaw => .inr (.notUtf8 flaw)
  · intro fault
    cases fault with
    | refused line text reason => exact .inl rfl
    | longNumeral digits => exact .inr (.longNumeral digits)
  · intro fault
    cases fault with
    | notAscii => exact .inr .notAscii
    | decode cause => exact .inl rfl

namespace Definition

theorem numeral_scalar (n : Nat) : (numeral n).Scalar :=
  Text.inked_scalar _ fun c mem => Text.digit_inked c (numeral_digits n c mem)

theorem state_line_scalar (start : Label) (s : State) : (stateLine start s).Scalar := by
  simp only [stateLine, Text.scalar_append]
  refine ⟨⟨?_, numeral_scalar _⟩, ?_⟩
  · split <;> decide
  · split <;> decide

variable (d : Definition) (filed : d.Filed)

include filed

theorem declared_scalar (word : Text) (declared : ∀ c ∈ word, [c] ∈ d.charset) : word.Scalar :=
  fun c mem => filed.scalar c (declared c mem)

theorem symbol_scalar (symbol : Text) (mem : symbol ∈ d.charset) : symbol.Scalar := by
  obtain ⟨c, rfl⟩ := filed.sound.closed.single symbol mem
  exact declared_scalar d filed [c] fun e inside => by rwa [List.mem_singleton.mp inside]

theorem header_lines_scalar : ∀ line ∈ d.headerLines, line.Scalar := by
  simp only [headerLines, List.forall_mem_append]
  refine ⟨⟨?_, ?_⟩, ?_⟩
  · split
    · simp
    · simp only [List.forall_mem_singleton, Text.scalar_append]
      exact ⟨by decide, Text.scalar_join _ _ (by decide) (symbol_scalar d filed)⟩
  · split
    · simp
    · simp
    · rename_i word _ memory
      simp only [List.forall_mem_singleton, Text.scalar_append]
      exact ⟨by decide, declared_scalar d filed word (filed.sound.closed.memory word memory)⟩
  · split
    · simp
    · rename_i b blank
      simp only [List.forall_mem_singleton, Text.scalar_append]
      exact ⟨by decide, symbol_scalar d filed b (filed.sound.closed.blank b blank)⟩

theorem transition_text_scalar (s : State) (mem : s ∈ d.configuration.states) (t : Transition)
    (within : t ∈ s.transitions) :
    (transitionText s.id t).Scalar := by
  have plain (x : Symbol) (used : x ∈ t.output :: t.inputs) : x.plain.Scalar := by
    obtain ⟨c, rfl, declared⟩ := filed.sound.closed.symbols s mem t within x used
    exact symbol_scalar d filed [c] declared
  have inputs : Text.Scalar (t.inputs.flatMap Symbol.plain) := by
    intro c inside
    obtain ⟨x, listed, inside⟩ := List.mem_flatMap.mp inside
    exact plain x (List.mem_cons_of_mem _ listed) c inside
  have letter : Text.Scalar [t.action.letter] := by cases t.action <;> decide
  have output := plain t.output List.mem_cons_self
  have gap : Text.Scalar " " ∧ Text.Scalar " -> " := by decide
  simp only [transitionText, Text.scalar_append, numeral_scalar, inputs, letter, output, gap, and_self]

theorem filed_text_scalar (t : Text) (told : d.toText = .ok t) : t.Scalar := by
  have printed : d.toText = .ok (Text.join "\n" d.printedLines ++ "\n") := by
    rw [toText, fit_lines d filed.fits]
    rfl
  rw [printed] at told
  rw [← Except.ok.inj told, Text.scalar_append]
  refine ⟨Text.scalar_join _ _ (by decide) ?_, by decide⟩
  simp only [printedLines, List.forall_mem_append, List.forall_mem_map, List.forall_mem_flatMap]
  exact ⟨⟨header_lines_scalar d filed, fun s _ => state_line_scalar _ s⟩, transition_text_scalar d filed⟩

end Definition

namespace Job

variable {α β : Type} (faults : Fault → Prop)

def Passes (job : Job α) (a : α) : Prop :=
  ∀ s, (∃ t, job.runIn s = (.ok a, t) ∧ t.store = s.store) ∨ ∃ fault t, job.runIn s = (.error fault, t) ∧ faults fault

/-- A job that ends as it should in a session, or with one of some faults. -/
def Settles (good : Except Fault α → Prop) (job : Job α) (s : Session) : Prop :=
  good (job.runIn s).1 ∨ ∃ fault, (job.runIn s).1 = .error fault ∧ faults fault

theorem passes_pure (a : α) : (pure a : Job α).Passes faults a := fun s => .inl ⟨s, rfl, rfl⟩

theorem passes_lift (result : Except Fault α) (a : α) (ok : result = .ok a) : (lift result).Passes faults a := by
  intro s
  exact .inl ⟨s, by rw [run_lift, ok], rfl⟩

theorem passes_print [Screen] (p : Print)
    (each : ∀ t ∈ p.markup, ∀ message, Screen.refuses t = some message → faults (.markup t message)) :
    (print p).Passes faults () := by
  intro s
  rcases print_cases s p with shown | ⟨t, mem, message, refused, failed⟩
  · exact .inl ⟨_, shown, rfl⟩
  · exact .inr ⟨_, _, failed, each t mem message refused⟩

theorem passes_bind (job : Job α) (next : α → Job β) (a : α) (b : β) (first : job.Passes faults a)
    (second : (next a).Passes faults b) :
    (job >>= next).Passes faults b := by
  intro s
  rcases first s with ⟨t, ran, same⟩ | ⟨fault, t, ran, known⟩
  · rw [run_bind_ok _ _ _ _ _ ran]
    rcases second t with ⟨u, ended, kept⟩ | failed
    · exact .inl ⟨u, ended, kept.trans same⟩
    · exact .inr failed
  · exact .inr ⟨fault, t, run_bind_error _ _ _ _ _ ran, known⟩

theorem passes_forM (items : List α) (job : α → Job Unit) (each : ∀ a ∈ items, (job a).Passes faults ()) :
    (items.forM job).Passes faults () := by
  induction items with
  | nil => exact passes_pure faults ()
  | cons a rest ih =>
      obtain ⟨first, others⟩ := List.forall_mem_cons.mp each
      exact passes_bind faults (job a) (fun _ => rest.forM job) () () first (ih others)

section Settling

variable (good : Except Fault β → Prop) (job : Job α) (next : α → Job β) (a : α) (s t : Session)

theorem settles_after (ran : job.runIn s = (.ok a, t)) (rest : (next a).Settles faults good t) :
    (job >>= next).Settles faults good s := by
  rwa [Settles, run_bind_ok _ _ _ _ _ ran]

theorem settles_failed (fault : Fault) (ran : job.runIn s = (.error fault, t)) (holds : good (.error fault)) :
    (job >>= next).Settles faults good s := by
  rw [Settles, run_bind_error _ _ _ _ _ ran]
  exact .inl holds

theorem settles_through (passes : job.Passes faults a)
    (rest : ∀ t, t.store = s.store → (next a).Settles faults good t) :
    (job >>= next).Settles faults good s := by
  rcases passes s with ⟨t, ran, same⟩ | ⟨fault, t, ran, known⟩
  · exact settles_after faults good job next a s t ran (rest t same)
  · rw [Settles, run_bind_error _ _ _ _ _ ran]
    exact .inr ⟨fault, rfl, known⟩

end Settling

end Job

namespace Command

section Endings

variable [Screen] (a : Arguments) (d : Definition)

def bytesStage : Job Unit := if a.has bytesFlag then printBytes d else pure ()

def base64Stage : Job Unit := if a.has toBase64 then (do Job.say (← d.base64)) else pure ()

def binaryStage : Job Unit :=
  match a.someText? toBinary with
  | some target => d.storeBytes (Path.ofText target)
  | none => pure ()

def textStage : Job Unit :=
  match a.someText? toText with
  | some target => do
      Job.writeText (Path.ofText target).toText (← d.lines)
      Job.say (Definition.wrote target)
  | none => pure ()

def stages : Command := do
  Job.say ("[INFO] Definition " ++ a.operand.getD [])
  d.inspection.forM Job.print
  bytesStage a d
  base64Stage a d
  binaryStage a d
  textStage a d
  return 0

theorem inspect_stages (pieces : List Text) (read : inspectGrammar.read pieces = .ok a) :
    inspect pieces = (do
      match ← reported FaultKind.isReading "Error" (Definition.load (Path.ofText (a.operand.getD []))) with
      | none => return 1
      | some d => stages a d) := by
  rw [inspect, withArguments, read]
  refine bind_congr fun loaded => ?_
  cases loaded with
  | none => rfl
  | some d =>
      simp only [stages, bytesStage, base64Stage, binaryStage, textStage]
      -- Where something is asked for, the rest is done after it; else it is done at once.
      cases a.has bytesFlag <;> cases a.has toBase64 <;> cases a.someText? toBinary <;> cases a.someText? toText <;>
        simp only [Bool.false_eq_true, if_true, if_false, pure_bind, bind_assoc]

omit [Screen] in
/-- The texts of an inspection that may have tags. -/
inductive Risky : Text → Prop where
  | path : Risky ("[INFO] Definition " ++ a.operand.getD [])
  | memory (word : Text) (held : d.memory = some word) : Risky ("  Initial memory: " ++ word.quoted)
  | bytes (target : Text) (asked : a.someText? toBinary = some target) :
      Risky (Definition.wrote (Path.ofText target).toText)
  | text (target : Text) (asked : a.someText? toText = some target) : Risky (Definition.wrote target)

inductive Unshown : Fault → Prop where
  | refused (t message : Text) (risky : Risky a d t) (refused : Screen.refuses t = some message)
      (tagged : ¬ Screen.Tame t) :
      Unshown (.markup t message)

section Texts

variable (lawful : Screen.Lawful)

include lawful

theorem risky_unshown (t message : Text) (risky : Risky a d t) (refused : Screen.refuses t = some message) :
    Unshown a d (.markup t message) := by
  refine .refused t message risky refused fun tame => ?_
  rw [lawful.tame t tame] at refused
  cases refused

theorem print_passes (p : Print) (each : ∀ t ∈ p.markup, Screen.Tame t ∨ Risky a d t) :
    (print p).Passes (Unshown a d) () := by
  refine passes_print _ p fun t mem message refused => ?_
  rcases each t mem with tame | risky
  · rw [lawful.tame t tame] at refused
    cases refused
  · exact risky_unshown a d lawful t message risky refused

theorem say_passes (t : Text) (bare : t.bracketless = true) : (say t).Passes (Unshown a d) () := by
  refine print_passes a d lawful (.text t) fun u mem => ?_
  obtain rfl := List.mem_singleton.mp mem
  exact .inl (Screen.tame_bracketless u bare)

theorem path_passes : (say ("[INFO] Definition " ++ a.operand.getD [])).Passes (Unshown a d) () := by
  refine print_passes a d lawful (.text _) fun u mem => ?_
  obtain rfl := List.mem_singleton.mp mem
  exact .inr .path

theorem inspection_passes (filed : d.Filed) : (d.inspection.forM print).Passes (Unshown a d) () := by
  refine passes_forM _ _ _ fun p shown => print_passes a d lawful p fun t mem => ?_
  rcases d.inspection_tame filed p shown t mem with tame | ⟨word, held, rfl⟩
  · exact .inl tame
  · exact .inr (.memory word held)

theorem settles_said (good : Except Fault Nat → Prop) (text : Text) (risky : Risky a d text)
    (job : Job Unit) (next : Unit → Command)
    (s t : Session) (ran : job.runIn s = (say text).runIn t)
    (rest : (next ()).Settles (Unshown a d) good (t.told text)) :
    (job >>= next).Settles (Unshown a d) good s := by
  rcases say_cases t text with said | ⟨message, refused, failed⟩
  · exact settles_after _ good job next () s _ (ran.trans said) rest
  · rw [Settles, run_bind_error _ _ _ _ _ (ran.trans failed)]
    exact .inr ⟨_, rfl, risky_unshown a d lawful text message risky refused⟩

end Texts

def NeedsBytes : Prop := a.has bytesFlag = true ∨ a.has toBase64 = true ∨ (a.someText? toBinary).isSome = true

/-- The files that are asked for can be written, the text after the folder of the bytes was made. -/
def Reaches (s : Store) : Prop :=
  match a.someText? toBinary with
  | some target => ∃ u, s.makePath (Path.ofText target).parent = .ok u ∧ u.Open (Path.ofText target).toText ∧
      ∀ text, a.someText? toText = some text → u.Open (Path.ofText text).toText
  | none => ∀ text, a.someText? toText = some text → s.Open (Path.ofText text).toText

section Encoded

variable (bytes : Bytes) (encoded : Binary.encodeDefinition d = .ok bytes)

include encoded

theorem store_bytes_run (path : Path) (s : Session) (u : Store)
    (made : s.store.makePath path.parent = .ok u) (opens : u.Open path.toText) :
    ∃ t, (d.storeBytes path).runIn s = (say (Definition.wrote path.toText)).runIn t ∧ u.SameFolders t.store := by
  obtain ⟨store, written⟩ := u.open_update path.toText opens fun _ => bytes
  have stored : u.write path.toText bytes = .ok store := written
  refine ⟨{ s with store }, ?_, (Store.update_changes u store _ _ written).1⟩
  have folder : (makePath path.parent).runIn s = (.ok (), { s with store := u }) := by rw [makePath, run_change, made]
  have form : d.bytes.runIn { s with store := u } = (.ok bytes, { s with store := u }) := by
    rw [Definition.bytes, run_lift, encoded]; rfl
  have file : (writeBytes path.toText bytes).runIn { s with store := u } = (.ok (), { s with store := store }) := by
    rw [writeBytes, run_change, stored]
  exact (run_bind_ok _ _ _ _ _ folder).trans ((run_bind_ok _ _ _ _ _ form).trans (run_bind_ok _ _ _ _ _ file))

variable (lawful : Screen.Lawful)

include lawful

theorem base64_passes : (do Job.say (← d.base64)).Passes (Unshown a d) () := by
  have text : d.base64.Passes (Unshown a d) (Base64.encode bytes) := by
    refine passes_lift _ _ _ ?_
    rw [Binary.encodeBase64, encoded]
    rfl
  exact passes_bind _ _ _ _ () text (say_passes a d lawful _ (Text.bracketless_base64 bytes))

theorem print_bytes_passes : (printBytes d).Passes (Unshown a d) () := by
  have found : d.bytes.Passes (Unshown a d) bytes := passes_lift _ _ _ (by rw [encoded]; rfl)
  have rows : ((Hex.rows 32 bytes).forM fun row => say ("    " ++ row)).Passes (Unshown a d) () := by
    refine passes_forM _ _ _ fun row listed => say_passes a d lawful _ ?_
    obtain ⟨batch, _, rfl⟩ := List.mem_map.mp listed
    rw [Text.bracketless_append, Text.bracketless_hex_row]
    rfl
  exact passes_bind _ _ _ () () (say_passes a d lawful _ rfl) (passes_bind _ _ _ bytes () found rows)

end Encoded

section Stages

variable (lawful : Screen.Lawful)

include lawful

theorem bytes_stage_passes (able : a.has bytesFlag = true → ∃ bytes, Binary.encodeDefinition d = .ok bytes) :
    (bytesStage a d).Passes (Unshown a d) () := by
  rw [bytesStage]
  split
  · rename_i asked
    obtain ⟨bytes, encoded⟩ := able asked
    exact print_bytes_passes a d bytes encoded lawful
  · exact passes_pure _ ()

theorem base64_stage_passes (able : a.has toBase64 = true → ∃ bytes, Binary.encodeDefinition d = .ok bytes) :
    (base64Stage a d).Passes (Unshown a d) () := by
  rw [base64Stage]
  split
  · rename_i asked
    obtain ⟨bytes, encoded⟩ := able asked
    exact base64_passes a d bytes encoded lawful
  · exact passes_pure _ ()

variable (filed : d.Filed) (s : Session)

include filed

theorem text_stage_settles (opens : ∀ text, a.someText? toText = some text → s.store.Open (Path.ofText text).toText) :
    (do
      textStage a d
      return 0 : Command).Settles (Unshown a d) (· = .ok 0) s := by
  cases asked : a.someText? toText with
  | none =>
      have idle : (textStage a d).runIn s = (.ok (), s) := by rw [textStage, asked]; rfl
      exact settles_after _ _ _ _ () s s idle (.inl rfl)
  | some text =>
      obtain ⟨form, told⟩ := d.filed_text filed
      obtain ⟨bytes, encoded⟩ := Utf8.encode_exists form (d.filed_text_scalar filed form told)
      obtain ⟨store, written, _⟩ := run_write_open _ form bytes encoded s (opens text asked)
      have lines : d.lines.runIn s = (.ok form, s) := by rw [Definition.lines, run_lift, told]; rfl
      refine settles_said a d lawful _ (Definition.wrote text) (.text text asked) _ _ s { s with store } ?_ (.inl rfl)
      rw [textStage, asked]
      exact (run_bind_ok _ _ _ _ _ lines).trans (run_bind_ok _ _ _ _ _ written)

theorem stages_complete (able : NeedsBytes a → ∃ bytes, Binary.encodeDefinition d = .ok bytes)
    (reaches : Reaches a s.store) :
    (stages a d).Settles (Unshown a d) (· = .ok 0) s := by
  refine settles_through _ _ _ _ () s (path_passes a d lawful) fun t named => ?_
  refine settles_through _ _ _ _ () t (inspection_passes a d lawful filed) fun u shown => ?_
  refine settles_through _ _ _ _ () u (bytes_stage_passes a d lawful fun asked => able (.inl asked)) fun v dumped => ?_
  refine settles_through _ _ _ _ () v (base64_stage_passes a d lawful fun asked => able (.inr (.inl asked)))
    fun w coded => ?_
  have same : w.store = s.store := by rw [coded, dumped, shown, named]
  rw [← same, Reaches] at reaches
  cases asked : a.someText? toBinary with
  | none =>
      rw [asked] at reaches
      have idle : (binaryStage a d).runIn w = (.ok (), w) := by rw [binaryStage, asked]; rfl
      exact settles_after _ _ _ _ () w w idle (text_stage_settles a d lawful filed w reaches)
  | some target =>
      rw [asked] at reaches
      obtain ⟨folder, made, opens, texts⟩ := reaches
      obtain ⟨bytes, encoded⟩ := able (.inr (.inr (by rw [asked]; rfl)))
      obtain ⟨x, stored, folders⟩ := store_bytes_run d bytes encoded (Path.ofText target) w folder made opens
      have done : (binaryStage a d).runIn w = (say (Definition.wrote (Path.ofText target).toText)).runIn x := by
        rw [binaryStage, asked]
        exact stored
      refine settles_said a d lawful _ _ (.bytes target asked) _ _ w x done (text_stage_settles a d lawful filed _ ?_)
      exact fun text named => Store.open_stays _ _ _ folders (texts text named)

theorem stages_fail (fault : EncodeFault) (failed : Binary.encodeDefinition d = .error fault) (needs : NeedsBytes a)
    (reaches : Reaches a s.store) : (stages a d).Settles (Unshown a d) (· = .error (.encode fault)) s := by
  have noBytes (r : Session) : d.bytes.runIn r = (.error (.encode fault), r) := by
    rw [Definition.bytes, run_lift, failed]; rfl
  refine settles_through _ _ _ _ () s (path_passes a d lawful) fun t named => ?_
  refine settles_through _ _ _ _ () t (inspection_passes a d lawful filed) fun u shown => ?_
  by_cases dump : a.has bytesFlag = true
  · have said := run_say u "\n=== Configuration (bytes) ===" (Screen.bracketless_taken lawful _ rfl)
    have dumped : (bytesStage a d).runIn u = (.error (.encode fault), u.told "\n=== Configuration (bytes) ===") := by
      rw [bytesStage, if_pos dump]
      exact (run_bind_ok _ _ _ _ _ said).trans (run_bind_error _ _ _ _ _ (noBytes _))
    exact settles_failed _ _ _ _ u _ _ dumped rfl
  refine settles_through _ _ _ _ () u (bytes_stage_passes a d lawful fun asked => absurd asked dump) fun v dumped => ?_
  by_cases code : a.has toBase64 = true
  · have noText : d.base64.runIn v = (.error (.encode fault), v) := by
      rw [Definition.base64, run_lift, Binary.encodeBase64, failed]
      rfl
    have coded : (base64Stage a d).runIn v = (.error (.encode fault), v) := by
      rw [base64Stage, if_pos code]
      exact run_bind_error _ _ _ _ _ noText
    exact settles_failed _ _ _ _ v _ _ coded rfl
  refine settles_through _ _ _ _ () v (base64_stage_passes a d lawful fun asked => absurd asked code) fun w coded => ?_
  have asked : (a.someText? toBinary).isSome = true := (needs.resolve_left dump).resolve_left code
  obtain ⟨target, asked⟩ := Option.isSome_iff_exists.mp asked
  have same : w.store = s.store := by rw [coded, dumped, shown, named]
  rw [← same, Reaches, asked] at reaches
  obtain ⟨folder, made, _⟩ := reaches
  have folders : (makePath (Path.ofText target).parent).runIn w = (.ok (), { w with store := folder }) := by
    rw [makePath, run_change, made]
  have stored : (binaryStage a d).runIn w = (.error (.encode fault), { w with store := folder }) := by
    rw [binaryStage, asked]
    exact (run_bind_ok _ _ _ _ _ folders).trans (run_bind_error _ _ _ _ _ (noBytes _))
  exact settles_failed _ _ _ _ w _ _ stored rfl

end Stages

/-- How the command ends. What loading gives tells which of these it is, but for what the screen refuses. -/
inductive Inspected (s : Session) : Except Fault Nat × Session → Prop where
  | reported (fault : Fault) (failed : (Definition.load (Path.ofText (a.operand.getD []))).runIn s = (.error fault, s))
      (expected : fault.kind.isReading = true) (taken : Screen.refuses (complaint "Error" fault) = none) :
      Inspected s (.ok 1, s.told (complaint "Error" fault))
  | unheard (fault : Fault) (message : Text)
      (failed : (Definition.load (Path.ofText (a.operand.getD []))).runIn s = (.error fault, s))
      (expected : fault.kind.isReading = true) (tagged : fault.message.untagged = false)
      (refused : Screen.refuses (complaint "Error" fault) = some message) :
      Inspected s (.error (.markup (complaint "Error" fault) message), s)
  | escaped (fault : Fault) (failed : (Definition.load (Path.ofText (a.operand.getD []))).runIn s = (.error fault, s))
      (silent : Unguarded fault) : Inspected s (.error fault, s)
  | shown (d : Definition) (t : Session)
      (loaded : (Definition.load (Path.ofText (a.operand.getD []))).runIn s = (.ok d, s))
      (narrow : NeedsBytes a → d.Narrow) : Inspected s (.ok 0, t)
  | wide (d : Definition) (t : Session) (fault : EncodeFault)
      (loaded : (Definition.load (Path.ofText (a.operand.getD []))).runIn s = (.ok d, s))
      (needs : NeedsBytes a) (wide : ¬ d.Narrow) :
      Inspected s (.error (.encode fault), t)
  | unshown (d : Definition) (t : Session) (fault : Fault)
      (loaded : (Definition.load (Path.ofText (a.operand.getD []))).runIn s = (.ok d, s))
      (unshown : Unshown a d fault) :
      Inspected s (.error fault, t)

theorem loaded_inspected (lawful : Screen.Lawful) (s : Session)
    (loaded : (Definition.load (Path.ofText (a.operand.getD []))).runIn s = (.ok d, s)) (reaches : Reaches a s.store) :
    Inspected a s ((stages a d).runIn s) := by
  have filed := Definition.load_filed _ d s s loaded
  -- Whether there are bytes is settled by the definition, before anything is shown of it.
  cases ended : (stages a d).runIn s with
  | mk outcome t =>
      by_cases narrow : NeedsBytes a → d.Narrow
      · have settled := stages_complete a d lawful filed s
          (fun needs => (d.encoded_iff_narrow filed).mpr (narrow needs)) reaches
        rw [Settles, ended] at settled
        rcases settled with rfl | ⟨fault, rfl, unshown⟩
        · exact .shown d t loaded narrow
        · exact .unshown d t fault loaded unshown
      · obtain ⟨needs, wide⟩ := Classical.not_imp.mp narrow
        cases encoded : Binary.encodeDefinition d with
        | ok bytes => exact absurd ((d.encoded_iff_narrow filed).mp ⟨bytes, encoded⟩) wide
        | error fault =>
            have settled := stages_fail a d lawful filed s fault encoded needs reaches
            rw [Settles, ended] at settled
            rcases settled with rfl | ⟨fault, rfl, unshown⟩
            · exact .wide d t fault loaded needs wide
            · exact .unshown d t fault loaded unshown

/-- The command reports what it expects to go wrong in reading, and does what it is asked for with a
definition that was read. It fails where reading goes wrong in another way, where bytes are asked
for that a definition does not have, and where the screen refuses a report or one of the few texts
of an inspection that may have tags. -/
theorem inspect_ends_as_loading_tells (lawful : Screen.Lawful) (pieces : List Text)
    (read : inspectGrammar.read pieces = .ok a) (s : Session)
    (reaches : Reaches a s.store) : Inspected a s ((inspect pieces).runIn s) := by
  rw [inspect_stages a pieces read, run_bind]
  have same := same_run _ (Definition.load_same (Path.ofText (a.operand.getD [])))
  cases ran : (reported FaultKind.isReading "Error" (Definition.load (Path.ofText (a.operand.getD [])))).runIn s with
  | mk outcome t =>
      cases reported_ended _ _ _ s t outcome ran with
      | told fault _ failed expected taken =>
          obtain rfl := same _ _ _ failed
          exact .reported fault failed expected taken
      | unheard fault _ message failed expected refused =>
          obtain rfl := same _ _ _ failed
          exact .unheard fault message failed expected
            (complaint_tagged lawful "Error" rfl fault message refused) refused
      | passed fault _ failed unexpected =>
          obtain rfl := same _ _ _ failed
          exact .escaped fault failed ((Definition.load_sorted _ _ fault _ failed).resolve_left unexpected)
      | done d _ loaded =>
          obtain rfl := same _ _ _ loaded
          exact loaded_inspected a d lawful _ loaded reaches

end Endings

section Runs

open scoped StandIn

theorem definition_with_its_bytes_is_shown :
    let s := Definition.oneFile "ab.tm" "%charset a b _\n%blank _\n0\n0 a -> b r 0\n"
    let a : Arguments := { given := [(bytesFlag, .bool true)], operand := some "ab.tm" }
    inspectGrammar.read ["ab.tm", "--bytes"] = .ok a ∧ Reaches a s.store ∧
      Inspected a s ((inspect ["ab.tm", "--bytes"]).runIn s) ∧
      ((inspect ["ab.tm", "--bytes"]).runIn s).1.toOption = some 0 := by
  intro s a
  have read : inspectGrammar.read ["ab.tm", "--bytes"] = .ok a := by rfl
  have reaches : Reaches a s.store := by
    intro text asked
    cases asked
  exact ⟨read, reaches, inspect_ends_as_loading_tells a StandIn.screen_lawful _ read s reaches, by decide +kernel⟩

def AlwaysExits : Prop :=
  ∀ (pieces : List Text) (a : Arguments) (s : Session), inspectGrammar.read pieces = .ok a → Reaches a s.store →
    ∃ code t, (inspect pieces).runIn s = (.ok code, t)

theorem foreign_byte_ends_the_inspection :
    let foreign : Session := { store := { files := [(["m.tm"], [0xFF])] } }
    let wide := Definition.oneFile "m.tm" "18446744073709551616\n"
    inspectGrammar.read ["m.tm"] = .ok { operand := some "m.tm" } ∧ Reaches { operand := some "m.tm" } foreign.store ∧
      ((inspect ["m.tm"]).runIn foreign).1.toOption = none ∧ ((inspect ["m.tm"]).runIn wide).1.toOption = some 0 ∧
      ((inspect ["m.tm", "--bytes"]).runIn wide).1.toOption = none ∧ ¬ AlwaysExits := by
  intro foreign wide
  have read : inspectGrammar.read ["m.tm"] = .ok { operand := some "m.tm" } := by rfl
  have reaches : Reaches { operand := some "m.tm" } foreign.store := by
    intro text asked
    cases asked
  have failed : ((inspect ["m.tm"]).runIn foreign).1.toOption = none := by decide +kernel
  refine ⟨read, reaches, failed, by decide +kernel, by decide +kernel, fun always => ?_⟩
  obtain ⟨code, t, exits⟩ := always ["m.tm"] _ foreign read reaches
  rw [exits] at failed
  cases failed

end Runs

end Command

end TapeMachine
