/-
What the steps of a service come to.

A step stores a processor, deletes one, counts a run of one, or changes nothing that is stored.
Which of these it is can be told from what was asked and what was answered; for a run that names no
processor also from what was stored. It says all about what is stored afterwards.

* `ServiceStep`, `Service.history`, `Service.after` — the steps that some commands lead to;
* `ServiceEvent`, `ServiceStep.event` — what a step comes to;
* `ServiceEvent.apply`, `stored_step` — what is stored after a step;
* `stored_after` — what is stored after some steps;
* `stored_step_of_error` — a step that fails, but for a missing anchor, changes nothing.
-/
import PageExtract.Proofs.Value.Members
import PageExtract.Service.Basic

namespace PageExtract

/-! ### Histories -/

/-- A step of a service: the service before it, what was asked, and what was answered. -/
structure ServiceStep where
  before : Service
  command : ServiceCommand
  answer : Except ServiceError ServiceAnswer

/-- The service after some commands. -/
def Service.after (env : Surroundings) (s : Service) : List ServiceCommand → Service
  | [] => s
  | c :: cs => (s.step env c).2.after env cs

/-- The steps that some commands lead to. -/
def Service.history (env : Surroundings) (s : Service) : List ServiceCommand → List ServiceStep
  | [] => []
  | c :: cs => ⟨s, c, (s.step env c).1⟩ :: (s.step env c).2.history env cs

/-- Every step of a history is answered as the service before it answers. -/
theorem answer_of_mem_history {env : Surroundings} {s : Service} {cs : List ServiceCommand}
    {t : ServiceStep} (ht : t ∈ s.history env cs) : t.answer = (t.before.step env t.command).1 := by
  induction cs generalizing s with
  | nil => cases ht
  | cons c cs ih =>
    obtain rfl | ht := List.mem_cons.1 ht
    · rfl
    · exact ih ht

/-! ### Events -/

/-- What a step comes to. -/
inductive ServiceEvent where
  | created (processor : Processor)
  | deleted (id : String)
  /-- A run that counts, and whether as a success. -/
  | ran (id : String) (success : Bool)
  | nothing

/-- The id of the processor that a command runs: the one that is asked for, or else that of the
stored processor that matches best. -/
def ServiceCommand.target? (s : Service) : ServiceCommand → Option String
  | .execute id _ => some id
  | .executeDocument id _ _ => some id
  | .route _ (some id) => some id
  | .route l none =>
    (matchProcessor l (s.stored.map fun m => m.2.processor)).map fun m => m.processor.id
  | _ => none

/-- What the answer to a creation says. -/
def ServiceEvent.ofCreation : Except ServiceError ServiceAnswer → ServiceEvent
  | .ok (.processor p) => .created p
  | _ => .nothing

/-- What the answer to a deletion says. -/
def ServiceEvent.ofDeletion (id : String) : Except ServiceError ServiceAnswer → ServiceEvent
  | .ok _ => .deleted id
  | .error _ => .nothing

/-- What the answer to a run says: it counts if it has a result, as a success if that passed its
validation, and as a failure if a required anchor is missing. -/
def ServiceEvent.ofRun (id : String) : Except ServiceError ServiceAnswer → ServiceEvent
  | .ok (.execution e) => .ran id e.validation.success
  | .error (.execution (.missingAnchor _)) => .ran id false
  | _ => .nothing

/-- What a step comes to, as its command and its answer tell. -/
def ServiceStep.event (t : ServiceStep) : ServiceEvent :=
  match t.command with
  | .create _ => .ofCreation t.answer
  | .delete id => .ofDeletion id t.answer
  | command =>
    match command.target? t.before with
    | some id => .ofRun id t.answer
    | none => .nothing

/-- The counts of a stored processor after one more run. -/
def StoredProcessor.tally (s : StoredProcessor) (success : Bool) : StoredProcessor :=
  if success then { s with successes := s.successes + 1 } else { s with failures := s.failures + 1 }

/-- What is stored after an event. -/
def ServiceEvent.apply (stored : Members StoredProcessor) : ServiceEvent → Members StoredProcessor
  | .created p => Members.put stored p.id ⟨p, 0, 0⟩
  | .deleted id => Members.erase stored id
  | .ran id success =>
    match Members.get? stored id with
    | some s => Members.put stored id (s.tally success)
    | none => stored
  | .nothing => stored

/-! ### Steps -/

section

variable (env : Surroundings) (s : Service)

/-- A creation reads a processor and stores it; before that it changes nothing that is stored. -/
theorem exists_create_eq (input : Option (Value Float)) :
    ∃ input' s', s'.stored = s.stored ∧ s.create env input =
      match Processor.ofInput env.now input' with
      | .ok p => (.ok p, s'.put p)
      | .error e => (.error (.processor e), s') := by
  unfold Service.create
  cases needsId input with
  | true => exact ⟨_, (s.issue env).2, rfl, rfl⟩
  | false => exact ⟨input, s, rfl, rfl⟩

theorem stored_create (input : Option (Value Float)) :
    (s.create env input).2.stored =
      (ServiceEvent.ofCreation ((s.create env input).1.map .processor)).apply s.stored := by
  obtain ⟨input', s', hs', hcreate⟩ := exists_create_eq env s input
  rw [hcreate, ← hs']
  cases Processor.ofInput env.now input' with
  | ok p => rfl
  | error e => rfl

/-- Counting an outcome of a stored processor is what the answer says of the run. -/
theorem stored_record {id : String} {stored : StoredProcessor} {ε : Type}
    (hstored : Members.get? s.stored id = some stored) (missing : ε → Bool)
    (toError : ε → ServiceError)
    (hmissing : ∀ e, missing e = true ↔ ∃ a, toError e = .execution (.missingAnchor a))
    (outcome : Except ε Execution) :
    (s.record id (stored.count missing outcome)).stored =
      (ServiceEvent.ofRun id ((outcome.mapError toError).map .execution)).apply s.stored := by
  cases outcome with
  | ok e =>
    show Members.put s.stored id _ = (ServiceEvent.ran id e.validation.success).apply s.stored
    simp only [ServiceEvent.apply, hstored]
    rfl
  | error e =>
    show Members.put s.stored id (if missing e then _ else stored) =
      (ServiceEvent.ofRun id (.error (toError e))).apply s.stored
    by_cases h : missing e = true
    · obtain ⟨a, ha⟩ := (hmissing e).1 h
      simp only [h, ha, ServiceEvent.ofRun, ServiceEvent.apply, hstored]
      rfl
    · rw [if_neg h, Members.put_get hstored]
      unfold ServiceEvent.ofRun
      split
      · contradiction
      · rename_i a ha
        exact absurd ((hmissing e).2 ⟨a, Except.error.inj ha⟩) h
      · rfl

theorem exists_of_find_eq_error {id : String} {e : ServiceError} (h : s.find id = .error e) :
    ∃ what, e = .notFound what := by
  unfold Service.find at h
  split at h
  · cases h
  · cases h
    exact ⟨_, rfl⟩

theorem find_eq_ok_iff {id : String} {stored : StoredProcessor} :
    s.find id = .ok stored ↔ Members.get? s.stored id = some stored := by
  unfold Service.find
  cases Members.get? s.stored id with
  | none => simp
  | some stored' => simp

theorem stored_delete (id : String) :
    (s.delete id).2.stored =
      (ServiceEvent.ofDeletion id ((s.delete id).1.map fun _ => .done)).apply s.stored := by
  unfold Service.delete
  split
  · rfl
  · rfl

theorem stored_execute (id : String) (l : Layout Float) :
    (s.execute env id l).2.stored =
      (ServiceEvent.ofRun id ((s.execute env id l).1.map .execution)).apply s.stored := by
  unfold Service.execute
  cases hfind : s.find id with
  | error e =>
    obtain ⟨what, rfl⟩ := exists_of_find_eq_error s hfind
    rfl
  | ok stored =>
    simp only
    generalize (PageExtract.execute env.settings l stored.processor).value = outcome
    refine stored_record s ((find_eq_ok_iff s).1 hfind) _ .execution (fun e => ?_) outcome
    cases e <;> simp [ExecutionError.isMissingAnchor]

theorem stored_executeDocument (id : String) (bytes : List UInt8) (info : DocumentInfo) :
    (s.executeDocument env id bytes info).2.stored =
      (ServiceEvent.ofRun id
        ((s.executeDocument env id bytes info).1.map .execution)).apply s.stored := by
  unfold Service.executeDocument
  cases hfind : s.find id with
  | error e =>
    obtain ⟨what, rfl⟩ := exists_of_find_eq_error s hfind
    rfl
  | ok stored =>
    simp only
    generalize runDocument env.readPdf env.settings env.fingerprintBlocks bytes info
      stored.processor = outcome
    refine stored_record s ((find_eq_ok_iff s).1 hfind) _ .ofRun (fun e => ?_) outcome
    rcases e with e | (e | e) <;>
      simp [RunError.isMissingAnchor, ExecutionError.isMissingAnchor, ServiceError.ofRun]

theorem stored_route (l : Layout Float) :
    (s.route env l none).2.stored =
      (match (ServiceCommand.route l none).target? s with
        | some id => ServiceEvent.ofRun id ((s.route env l none).1.map .execution)
        | none => .nothing).apply s.stored := by
  simp only [Service.route, ServiceCommand.target?]
  cases matchProcessor l (s.stored.map fun m => m.2.processor) with
  | some m => exact stored_execute env s m.processor.id l
  | none => rfl

/-- What is stored after a step is what its event says. -/
theorem stored_step (c : ServiceCommand) :
    (s.step env c).2.stored = (ServiceStep.event ⟨s, c, (s.step env c).1⟩).apply s.stored := by
  cases c with
  | create input => exact stored_create env s input
  | list documentType => rfl
  | get id => rfl
  | delete id => exact stored_delete s id
  | execute id l => exact stored_execute env s id l
  | executeDocument id bytes info => exact stored_executeDocument env s id bytes info
  | route l id =>
    cases id with
    | some id => exact stored_execute env s id l
    | none => exact stored_route env s l

end

/-- A step that fails, but for a missing anchor, comes to nothing. -/
theorem event_of_error {t : ServiceStep} {e : ServiceError} (ht : t.answer = .error e)
    (he : ∀ a, e ≠ .execution (.missingAnchor a)) : t.event = .nothing := by
  have hrun : ∀ id, ServiceEvent.ofRun id (.error e) = .nothing := by
    intro id
    unfold ServiceEvent.ofRun
    split
    · contradiction
    · rename_i a ha
      exact absurd (Except.error.inj ha) (he a)
    · rfl
  unfold ServiceStep.event
  rw [ht]
  split
  · rfl
  · rfl
  · split
    · exact hrun _
    · rfl

/-- A step that fails, but for a missing anchor, changes nothing that is stored. -/
theorem stored_step_of_error {env : Surroundings} {s : Service} {c : ServiceCommand}
    {e : ServiceError} (hstep : (s.step env c).1 = .error e)
    (he : ∀ a, e ≠ .execution (.missingAnchor a)) : (s.step env c).2.stored = s.stored := by
  rw [stored_step, event_of_error hstep he]
  rfl

/-- What is stored after some commands is what the events of their steps say, one after the
other. -/
theorem stored_after (env : Surroundings) (s : Service) (cs : List ServiceCommand) :
    (s.after env cs).stored =
      ((s.history env cs).map ServiceStep.event).foldl ServiceEvent.apply s.stored := by
  induction cs generalizing s with
  | nil => rfl
  | cons c cs ih =>
    rw [Service.after, ih, stored_step]
    rfl

end PageExtract
