/-
The ways to the number 500.

An outcome breaks if it is an error whose number is 500. A service whose processors are sound breaks
only over a document: a PDF document that cannot be read, or a layout without page sizes that has
more pages than can be given one.

* `Breaks`, `breaks_bind` — outcomes that break, and how they arise from others;
* `IsOversized`, `DocumentFails` — the layouts and the documents that lead there;
* `not_breaks_execute`, `breaks_runDocument`, `breaks_step` — runs and steps;
* `Endpoint.Fails`, `breaks_perform` — when an endpoint breaks.
-/
import PageExtract.Http.Server
import PageExtract.Proofs.Layout.Accepted
import PageExtract.Proofs.Service.Documents

namespace PageExtract

/-! ### Outcomes -/

/-- Whether an outcome is an error whose number is 500. -/
def Breaks {ε α : Type} (status : ε → Nat) (r : Except ε α) : Prop :=
  ∃ e, r = .error e ∧ status e = 500

section

variable {ε ε' α β : Type} {status : ε → Nat}

@[simp] theorem breaks_ok (a : α) : ¬ Breaks status (.ok a) := by
  rintro ⟨e, he, -⟩
  cases he

@[simp] theorem breaks_error (e : ε) :
    Breaks status (.error e : Except ε α) ↔ status e = 500 := by
  constructor
  · rintro ⟨e', he, h⟩
    cases he
    exact h
  · exact fun h => ⟨e, rfl, h⟩

@[simp] theorem breaks_map (f : α → β) (r : Except ε α) :
    Breaks status (r.map f) ↔ Breaks status r := by
  cases r with
  | ok a => simp [Except.map]
  | error e => simp [Except.map]

@[simp] theorem breaks_mapError {status' : ε' → Nat} (f : ε → ε') (r : Except ε α) :
    Breaks status' (r.mapError f) ↔ Breaks (fun e => status' (f e)) r := by
  cases r with
  | ok a => simp [Except.mapError]
  | error e => simp [Except.mapError]

theorem breaks_bind (r : Except ε α) (f : α → Except ε β) :
    Breaks status (r.bind f) ↔ Breaks status r ∨ ∃ a, r = .ok a ∧ Breaks status (f a) := by
  cases r with
  | ok a => simp [Except.bind]
  | error e => simp [Except.bind]

end

/-! ### Layouts and documents -/

/-- Whether a layout gives no page sizes, but has more pages than can be given one. -/
def StoredLayout.IsOversized (l : StoredLayout Float) : Prop :=
  l.pageSizes = [] ∧ Numeric.ofNat pageLimit ≤ l.pageCount

/-- Whether an input is a layout as it should be that is oversized. -/
def IsOversized (v : Option (Value Float)) : Prop :=
  ∃ l : StoredLayout Float, (StoredLayout.reader (inputValue v)).toExcept = .ok l ∧ l.IsOversized

theorem complete_eq_none_iff (limit : Int) (l : StoredLayout Float) :
    l.complete? limit = none ↔ l.IsOversized := by
  unfold StoredLayout.complete? StoredLayout.IsOversized unitPages?
  simp only [Option.map_eq_none_iff, List.isEmpty_iff]
  split <;> simp_all

theorem breaks_ofValue (limit : Int) (v : Option (Value Float)) :
    Breaks (fun e => (ServiceError.document (.layout e)).status) (Layout.ofValue limit v) ↔
      ∃ l : StoredLayout Float, (StoredLayout.reader v).toExcept = .ok l ∧ l.IsOversized := by
  unfold Layout.ofValue
  cases (StoredLayout.reader v).toExcept with
  | error issues => simp [ServiceError.status]
  | ok l =>
    simp only [Except.ok.injEq, exists_eq_left', ← complete_eq_none_iff limit]
    cases l.complete? limit with
    | none => simp [ServiceError.status]
    | some l' => simp

/-- Reading a layout is answered with the number 500 exactly if the layout is oversized. -/
theorem breaks_ofInput (limit : Int) (v : Option (Value Float)) :
    Breaks (fun e => (ServiceError.document (.layout e)).status) (Layout.ofInput limit v) ↔
      IsOversized v := by
  cases v with
  | none => exact breaks_ofValue limit none
  | some v =>
    cases v with
    | str s =>
      simp only [Layout.ofInput, IsOversized, inputValue]
      cases Value.parse? s with
      | some w => exact breaks_ofValue limit (some w)
      | none =>
        have hnone : ∀ l : StoredLayout Float, (StoredLayout.reader none).toExcept ≠ .ok l :=
          fun l h => by cases h
        simp [ServiceError.status, hnone]
    | _ => simp only [Layout.ofInput, IsOversized, inputValue, breaks_ofValue]

/-- Whether the layout of a document cannot be made, although the kind of the document is known: it
is a PDF document that cannot be read, or an oversized layout. -/
inductive DocumentFails (env : Surroundings) (bytes : List UInt8) (info : DocumentInfo) : Prop
  | broken {message : String} (kind : DocumentKind.guess? info = some .pdf)
    (load : loadPdf env.readPdf env.fingerprintBlocks bytes info = .error message)
  | oversized (kind : DocumentKind.guess? info = some .json)
    (layout : IsOversized (some (.str (Utf8.decode bytes))))

theorem breaks_loadDocument (env : Surroundings) (bytes : List UInt8) (info : DocumentInfo) :
    Breaks (fun e => (ServiceError.document e).status)
        (loadDocument env.readPdf env.fingerprintBlocks bytes info) ↔
      DocumentFails env bytes info := by
  -- Naming the layout of a document does not fail.
  have hjson : Breaks (fun e => (ServiceError.document (.layout e)).status)
      (loadJson env.fingerprintBlocks bytes info) ↔
        IsOversized (some (.str (Utf8.decode bytes))) :=
    (breaks_map _ _).trans (breaks_ofInput _ _)
  unfold loadDocument
  cases hkind : DocumentKind.guess? info with
  | none =>
    refine ⟨fun h => by simp [ServiceError.status] at h, ?_⟩
    rintro (⟨hpdf, -⟩ | ⟨hjson, -⟩) <;> simp_all
  | some kind =>
    cases kind with
    | pdf =>
      rw [breaks_mapError]
      constructor
      · rintro ⟨message, hload, -⟩
        exact .broken hkind hload
      · rintro (⟨-, hload⟩ | ⟨hjson, -⟩)
        · exact ⟨_, hload, rfl⟩
        · cases hkind.symm.trans hjson
    | json =>
      rw [breaks_mapError, hjson]
      constructor
      · exact fun hlayout => .oversized hkind hlayout
      · rintro (⟨hpdf, -⟩ | ⟨-, hlayout⟩)
        · cases hkind.symm.trans hpdf
        · exact hlayout

/-! ### Runs -/

/-- A run of a sound processor is never answered with the number 500. -/
theorem not_breaks_execute {p : Processor} (hp : p.Sound) (s : Settings Float)
    (l : Layout Float) :
    ¬ Breaks (fun e => (ServiceError.execution e).status) (execute s l p).value := by
  obtain ⟨a, ha⟩ | ⟨result, hresult⟩ := hp.execute s l
  · rw [ha]
    simp [ServiceError.status]
  · rw [hresult]
    exact breaks_ok _

theorem breaks_runDocument {p : Processor} (hp : p.Sound) (env : Surroundings)
    (bytes : List UInt8) (info : DocumentInfo) :
    Breaks (fun e => (ServiceError.ofRun e).status)
        (runDocument env.readPdf env.settings env.fingerprintBlocks bytes info p) ↔
      DocumentFails env bytes info := by
  rw [← breaks_loadDocument, runDocument_eq, breaks_bind, breaks_mapError]
  -- Once there is a layout, neither the run breaks nor what is added to its warnings.
  refine or_iff_left ?_
  rintro ⟨l, -, hrun⟩
  obtain hrun | ⟨e, -, he⟩ := (breaks_bind _ _).1 hrun
  · rw [breaks_mapError] at hrun
    exact not_breaks_execute hp _ _ hrun
  · exact breaks_ok _ he

section

variable {env : Surroundings} {s : Service}

theorem status_of_find_eq_error {id : String} {e : ServiceError} (he : s.find id = .error e) :
    e.status ≠ 500 := by
  obtain ⟨what, rfl⟩ := exists_of_find_eq_error s he
  simp [ServiceError.status]

theorem not_breaks_service_execute (hs : s.Sound) (id : String) (l : Layout Float) :
    ¬ Breaks ServiceError.status (s.execute env id l).1 := by
  unfold Service.execute
  cases hfind : s.find id with
  | error e =>
    simp only
    rw [breaks_error]
    exact status_of_find_eq_error hfind
  | ok kept =>
    simp only [breaks_mapError]
    exact not_breaks_execute (hs.find hfind) _ _

theorem breaks_executeDocument (hs : s.Sound) (id : String) (bytes : List UInt8)
    (info : DocumentInfo) :
    Breaks ServiceError.status (s.executeDocument env id bytes info).1 ↔
      (∃ kept, s.find id = .ok kept) ∧ DocumentFails env bytes info := by
  unfold Service.executeDocument
  cases hfind : s.find id with
  | error e =>
    simp [status_of_find_eq_error hfind]
  | ok kept =>
    simp only [breaks_mapError, breaks_runDocument (hs.find hfind)]
    simp

theorem not_breaks_route (hs : s.Sound) (l : Layout Float) (id : Option String) :
    ¬ Breaks ServiceError.status (s.route env l id).1 := by
  cases id with
  | some id => exact not_breaks_service_execute hs id l
  | none =>
    unfold Service.route
    cases matchProcessor l (s.stored.map fun m => m.2.processor) with
    | some m => exact not_breaks_service_execute hs m.processor.id l
    | none => simp [ServiceError.status]

end

/-! ### Endpoints -/

/-- Whether a command is answered with the number 500: it runs a stored processor on a document
that fails. -/
def ServiceCommand.Fails (env : Surroundings) (s : Service) : ServiceCommand → Prop
  | .executeDocument id bytes info =>
    (∃ kept, s.find id = .ok kept) ∧ DocumentFails env bytes info
  | _ => False

/-- Whether what an endpoint is about, with the body of a request, is answered with the number 500:
a stored processor is run on a document that fails, or an oversized layout is given. -/
def Endpoint.Fails (env : Surroundings) (s : Service) (body : Option (Value Float)) :
    Endpoint → Prop
  | .executeProcessor id =>
    ∃ b, readBody ExecuteBody.reader body = .ok b ∧
      match b.bytes with
      | some text =>
        (∃ kept, s.find id = .ok kept) ∧
          DocumentFails env (Base64.decode text) ⟨b.filename, b.mime⟩
      | none => IsOversized b.layout
  | .execute => ∃ b, readBody RouteBody.reader body = .ok b ∧ IsOversized b.layout
  | .fingerprint => ∃ b, readBody FingerprintBody.reader body = .ok b ∧ IsOversized b.layout
  | _ => False

section

variable {env : Surroundings} {s : Service}

theorem not_breaks_create (input : Option (Value Float)) :
    ¬ Breaks ServiceError.status (s.create env input).1 := by
  obtain ⟨v, s', -, hcreate⟩ := exists_create_eq env s input
  rw [hcreate]
  cases Processor.ofInput env.now v with
  | ok p => simp
  | error e => simp [ServiceError.status]

theorem not_breaks_get (id : String) : ¬ Breaks ServiceError.status (s.get id) := by
  rw [Service.get, breaks_map]
  rintro ⟨e, he, hstatus⟩
  exact status_of_find_eq_error he hstatus

theorem not_breaks_delete (id : String) : ¬ Breaks ServiceError.status (s.delete id).1 := by
  unfold Service.delete
  split
  · exact breaks_ok _
  · simp [Service.unknown, ServiceError.status]

theorem breaks_step (hs : s.Sound) (c : ServiceCommand) :
    Breaks ServiceError.status (s.step env c).1 ↔ c.Fails env s := by
  cases c with
  | create input => simp [Service.step, ServiceCommand.Fails, not_breaks_create]
  | list documentType => simp [Service.step, ServiceCommand.Fails]
  | get id => simp [Service.step, ServiceCommand.Fails, not_breaks_get]
  | delete id => simp [Service.step, ServiceCommand.Fails, not_breaks_delete]
  | execute id l => simp [Service.step, ServiceCommand.Fails, not_breaks_service_execute hs]
  | executeDocument id bytes info =>
    simp [Service.step, ServiceCommand.Fails, breaks_executeDocument hs]
  | route l id => simp [Service.step, ServiceCommand.Fails, not_breaks_route hs]

/-- An error of the service has one number, whichever layer it is seen from. -/
theorem breaks_service {α : Type} (r : Except ServiceError α) :
    Breaks ApiError.status (r.mapError .service) ↔ Breaks ServiceError.status r :=
  breaks_mapError _ _

theorem breaks_obey (hs : s.Sound) (r : Except ApiError ServiceCommand) :
    Breaks ApiError.status (s.obey env r).1 ↔
      Breaks ApiError.status r ∨ ∃ c, r = .ok c ∧ c.Fails env s := by
  cases r with
  | error e => simp [Service.obey]
  | ok c => simp [Service.obey, breaks_service, breaks_step hs, -breaks_mapError]

theorem not_breaks_readBody {α : Type} (r : Reader Float α) (body : Option (Value Float)) :
    ¬ Breaks ApiError.status (readBody r body) := by
  unfold readBody
  cases (r body).toExcept with
  | ok a => simp [Except.mapError]
  | error issues => simp [Except.mapError, ApiError.status]

theorem breaks_readLayout (v : Option (Value Float)) :
    Breaks ApiError.status (readLayout env v) ↔ IsOversized v := by
  rw [readLayout, breaks_mapError]
  exact breaks_ofInput env.fingerprintBlocks v

/-- A body that is not as it should be is never answered with the number 500. -/
theorem breaks_obey_body (hs : s.Sound) {α : Type} (r : Reader Float α)
    (body : Option (Value Float)) (command : α → Except ApiError ServiceCommand) :
    Breaks ApiError.status (s.obey env ((readBody r body).bind command)).1 ↔
      ∃ b, readBody r body = .ok b ∧ Breaks ApiError.status (s.obey env (command b)).1 := by
  have hbody := not_breaks_readBody r body
  cases hread : readBody r body with
  | ok b => simp [Except.bind]
  | error e =>
    rw [hread] at hbody
    rw [breaks_obey hs]
    simpa [Except.bind] using hbody

/-- A command on a layout fails only if the layout is oversized. -/
theorem breaks_obey_layout (hs : s.Sound) (v : Option (Value Float))
    {command : Layout Float → ServiceCommand} (hcommand : ∀ l, ¬ (command l).Fails env s) :
    Breaks ApiError.status (s.obey env ((readLayout env v).map command)).1 ↔ IsOversized v := by
  rw [breaks_obey hs, breaks_map, breaks_readLayout]
  refine or_iff_left ?_
  rintro ⟨c, hc, hfails⟩
  cases hlayout : readLayout env v with
  | ok l =>
    rw [hlayout] at hc
    cases hc
    exact hcommand l hfails
  | error e =>
    rw [hlayout] at hc
    cases hc

theorem breaks_executeBody (hs : s.Sound) (id : String) (b : ExecuteBody) :
    Breaks ApiError.status (s.obey env (b.command env id)).1 ↔
      match b.bytes with
      | some text =>
        (∃ kept, s.find id = .ok kept) ∧
          DocumentFails env (Base64.decode text) ⟨b.filename, b.mime⟩
      | none => IsOversized b.layout := by
  unfold ExecuteBody.command
  cases b.bytes with
  | some text => simp [breaks_obey hs, ServiceCommand.Fails]
  | none => exact breaks_obey_layout hs b.layout fun _ h => h

/-- What an endpoint is about is answered with the number 500 exactly if it fails. -/
theorem breaks_perform (hs : s.Sound) (body : Option (Value Float)) (e : Endpoint) :
    Breaks ApiError.status (s.perform env body e).1 ↔ e.Fails env s body := by
  cases e with
  | health => simp [Service.perform, Endpoint.Fails]
  | createProcessor =>
    simp [Service.perform, Endpoint.Fails, breaks_service, not_breaks_create, -breaks_mapError]
  | listProcessors documentType =>
    simp [Service.perform, Endpoint.Fails, breaks_obey hs, ServiceCommand.Fails]
  | getProcessor id =>
    simp [Service.perform, Endpoint.Fails, breaks_obey hs, ServiceCommand.Fails]
  | deleteProcessor id =>
    simp [Service.perform, Endpoint.Fails, breaks_obey hs, ServiceCommand.Fails]
  | executeProcessor id =>
    refine (breaks_obey_body hs _ _ _).trans ?_
    simp only [breaks_executeBody hs, Endpoint.Fails]
  | execute =>
    refine (breaks_obey_body hs _ _ _).trans ?_
    simp only [Endpoint.Fails]
    refine exists_congr fun b => and_congr_right fun _ => ?_
    exact breaks_obey_layout hs b.layout fun _ h => h
  | validate => simp [Service.perform, Endpoint.Fails, not_breaks_readBody]
  | fingerprint =>
    have hlayout : ∀ b : FingerprintBody, Breaks ApiError.status
        ((readLayout env b.layout).map fun l => ApiResult.fingerprint l.fingerprint) ↔
          IsOversized b.layout := by
      intro b
      rw [breaks_map, breaks_readLayout]
    refine (breaks_bind _ _).trans ((or_iff_right (not_breaks_readBody _ _)).trans ?_)
    exact exists_congr fun b => and_congr_right fun _ => hlayout b

/-- What is stored after an endpoint has been used is what is stored after a step, or what was. -/
theorem Service.Sound.perform (hs : s.Sound) (body : Option (Value Float)) (e : Endpoint) :
    (s.perform env body e).2.Sound := by
  have hobey : ∀ r : Except ApiError ServiceCommand, (s.obey env r).2.Sound := by
    intro r
    cases r with
    | ok c => exact hs.step c
    | error e => exact hs
  cases e with
  | createProcessor => exact hs.step (.create body)
  | listProcessors documentType => exact hobey _
  | getProcessor id => exact hobey _
  | deleteProcessor id => exact hobey _
  | executeProcessor id => exact hobey _
  | execute => exact hobey _
  | health => exact hs
  | validate => exact hs
  | fingerprint => exact hs

end

end PageExtract
