/-
The numbers of responses.

A request that is well formed is answered with the number 500 exactly if what it is about fails, and
else with one of six numbers, whatever requests came before it.

* `Request.WellFormed` — the paths and the bodies that requests should have;
* `status_outcome`, `status_respond` — the number of one response;
* `Service.exchanges`, `status_exchanges` — the numbers of all responses in turn;
* `status_of_oversized` — a fingerprint can fail too.
-/
import PageExtract.Proofs.Http.Breaking

namespace PageExtract

/-! ### Requests -/

/-- Whether every part of the path of a request is the encoding of a text, and its body, if it has
one, is a list or a map. -/
structure Request.WellFormed (r : Request) : Prop where
  path : ∀ part ∈ (Target.ofText r.target).path,
    (Percent.decode? (String.ofList part)).isSome = true
  body : ∀ v ∈ r.body, (∃ vs, v = .list vs) ∨ ∃ ms, v = .map ms

/-- Whether what a request is about fails. -/
def Request.Fails (env : Surroundings) (s : Service) (r : Request) : Prop :=
  ∃ e, Endpoint.ofRequest r.method r.target = .ok e ∧ e.Fails env s (r.body.or (some (.map [])))

/-- A part of a path that is no encoding is one that the path has. -/
theorem exists_part_of_undecodable {path : List (List Char)} {text : String}
    (h : Resource.ofPath path = .error (.undecodable text)) :
    ∃ part ∈ path, Percent.decode? (String.ofList part) = none := by
  have hid : ∀ (resource : String → Resource) (part : List Char),
      Resource.ofId resource part = .error (.undecodable text) →
        Percent.decode? (String.ofList part) = none := by
    intro resource part hpart
    unfold Resource.ofId at hpart
    split at hpart
    · cases hpart
    · split at hpart
      · cases hpart
      · assumption
  -- Only the second part of a path is ever decoded.
  unfold Resource.ofPath at h
  split at h
  · split_ifs at h
    cases h
  · rename_i a b
    split_ifs at h
    · exact ⟨b, by simp, hid _ _ h⟩
    · cases h
  · rename_i a b c
    split_ifs at h
    · exact ⟨b, by simp, hid _ _ h⟩
    · cases h
  · cases h

/-- A well-formed request names no id that cannot be decoded. -/
theorem Request.WellFormed.ofRequest_ne {r : Request} (hr : r.WellFormed) (text : String) :
    Endpoint.ofRequest r.method r.target ≠ .error (.undecodable text) := by
  intro h
  unfold Endpoint.ofRequest at h
  simp only at h
  split at h
  · split at h <;> cases h
  · rename_i fault hfault
    cases h
    obtain ⟨part, hpart, hnone⟩ := exists_part_of_undecodable hfault
    simpa [hnone] using hr.path part hpart

theorem ApiResult.status_mem (r : ApiResult) : r.status ∈ [200, 201, 204, 400, 404, 422] := by
  unfold status
  split <;> decide

theorem ApiError.status_mem {e : ApiError} (he : e.status ≠ 500) :
    e.status ∈ [200, 201, 204, 400, 404, 422] := by
  unfold status ServiceError.status at he ⊢
  split
  · decide
  · simp at he
  · split <;> simp_all

/-- The number of an outcome is 500 exactly if it breaks, and else one of six. -/
theorem status_outcome (r : Except ApiError ApiResult) :
    ((outcome r).1 = 500 ∧ Breaks ApiError.status r) ∨
      ((outcome r).1 ∈ [200, 201, 204, 400, 404, 422] ∧ ¬ Breaks ApiError.status r) := by
  cases r with
  | ok r => exact .inr ⟨r.status_mem, breaks_ok _⟩
  | error e =>
    by_cases he : e.status = 500
    · exact .inl ⟨he, (breaks_error e).2 he⟩
    · exact .inr ⟨ApiError.status_mem he, mt (breaks_error e).1 he⟩

section

variable {env : Surroundings} {s : Service}

/-- Issuing an id changes nothing that is stored. -/
theorem Service.stored_identify (r : Request) : (s.identify env r).2.stored = s.stored := by
  unfold Service.identify
  split
  · split <;> rfl
  · rfl

/-- The response to a request, step by step. -/
theorem Service.respond_eq (r : Request) :
    s.respond env r =
      if r.method = .options then (⟨204, none, none⟩, s)
      else
        match Endpoint.ofRequest r.method r.target with
        | .error .unknown =>
          (.toMethod r.method 404 (s.identify env r).1 none, (s.identify env r).2)
        | .error (.undecodable part) =>
          (.toMethod r.method 500 (s.identify env r).1 (some (ApiError.undecodable part).toValue),
            (s.identify env r).2)
        | .ok e =>
          let performed := (s.identify env r).2.perform env (r.body.or (some (.map []))) e
          (.toMethod r.method (outcome performed.1).1 (s.identify env r).1 (outcome performed.1).2,
            performed.2) := rfl

theorem Service.Sound.identify (hs : s.Sound) (r : Request) : (s.identify env r).2.Sound := by
  unfold Service.Sound
  rwa [Service.stored_identify]

theorem Service.Sound.respond (hs : s.Sound) (r : Request) : (s.respond env r).2.Sound := by
  rw [Service.respond_eq]
  split
  · exact hs
  · split
    · exact hs.identify r
    · exact hs.identify r
    · exact (hs.identify r).perform _ _

/-- An endpoint fails with one service as with another that stores the same. -/
theorem Endpoint.fails_congr {s' : Service} (h : s'.stored = s.stored)
    (body : Option (Value Float)) (e : Endpoint) : e.Fails env s' body ↔ e.Fails env s body := by
  have hfind : s'.find = s.find := by
    funext id
    rw [Service.find, Service.find, h]
  cases e <;> simp only [Endpoint.Fails, hfind]

/-- There is no endpoint for options. -/
theorem ofRequest_options (target : String) (e : Endpoint) :
    Endpoint.ofRequest .options target ≠ .ok e := by
  intro h
  unfold Endpoint.ofRequest at h
  simp only at h
  split at h
  · rename_i r hr
    cases r <;> cases h
  · cases h

/-- The number of the response to a well-formed request is 500 exactly if the request fails, and
else one of six. -/
theorem status_respond (hs : s.Sound) {r : Request} (hr : r.WellFormed) :
    ((s.respond env r).1.status = 500 ∧ r.Fails env s) ∨
      ((s.respond env r).1.status ∈ [200, 201, 204, 400, 404, 422] ∧ ¬ r.Fails env s) := by
  rw [Service.respond_eq]
  split
  · rename_i hoptions
    refine .inr ⟨by simp, ?_⟩
    rintro ⟨e, he, -⟩
    exact ofRequest_options r.target e (hoptions ▸ he)
  · split
    · rename_i hunknown
      refine .inr ⟨by simp [Response.toMethod], ?_⟩
      rintro ⟨e, he, -⟩
      cases hunknown.symm.trans he
    · rename_i text hundecodable
      exact absurd hundecodable (hr.ofRequest_ne text)
    · rename_i e he
      have hfails : Breaks ApiError.status
          ((s.identify env r).2.perform env (r.body.or (some (.map []))) e).1 ↔ r.Fails env s := by
        rw [breaks_perform (hs.identify r), Endpoint.fails_congr (Service.stored_identify r)]
        simp [Request.Fails, he]
      rw [← hfails]
      exact status_outcome _

end

/-! ### Requests in turn -/

/-- A request, the service before it, and the response to it. -/
structure Exchange where
  before : Service
  request : Request
  response : Response

/-- The exchanges that some requests lead to. -/
def Service.exchanges (env : Surroundings) (s : Service) : List Request → List Exchange
  | [] => []
  | r :: rs => ⟨s, r, (s.respond env r).1⟩ :: (s.respond env r).2.exchanges env rs

theorem Service.response_exchanges (env : Surroundings) (s : Service) (rs : List Request) :
    (s.exchanges env rs).map (·.response) = s.respondAll env rs := by
  induction rs generalizing s with
  | nil => rfl
  | cons r rs ih =>
    rw [exchanges, List.map_cons, ih]
    rfl

/-- Every request of some exchanges meets a sound service, if the first one does, and the response
is the one of that service. -/
theorem Service.Sound.exchanges {env : Surroundings} {s : Service} (hs : s.Sound)
    {rs : List Request} {t : Exchange} (ht : t ∈ s.exchanges env rs) :
    t.before.Sound ∧ t.request ∈ rs ∧ t.response = (t.before.respond env t.request).1 := by
  induction rs generalizing s with
  | nil => cases ht
  | cons r rs ih =>
    obtain rfl | ht := List.mem_cons.1 ht
    · exact ⟨hs, List.mem_cons_self, rfl⟩
    · obtain ⟨hbefore, hmem, hresponse⟩ := ih (hs.respond r) ht
      exact ⟨hbefore, List.mem_cons_of_mem _ hmem, hresponse⟩

/-- A service that was empty answers well-formed requests in turn. A response has the number 500
exactly if its request fails: a stored processor is run on a PDF document that cannot be read, or a
layout is given that has no page sizes and more pages than can be given one. Else it has one of six
numbers. -/
theorem status_exchanges (env : Surroundings) {rs : List Request}
    (hrs : ∀ r ∈ rs, r.WellFormed) :
    (Service.empty.exchanges env rs).map (·.response) = Service.empty.respondAll env rs ∧
      ∀ t ∈ Service.empty.exchanges env rs,
        (t.response.status = 500 ∧ t.request.Fails env t.before) ∨
          (t.response.status ∈ [200, 201, 204, 400, 404, 422] ∧
            ¬ t.request.Fails env t.before) := by
  refine ⟨Service.empty.response_exchanges env rs, fun t ht => ?_⟩
  obtain ⟨hbefore, hmem, hresponse⟩ := sound_empty.exchanges ht
  rw [hresponse]
  exact status_respond hbefore (hrs t.request hmem)

/-- Surroundings without a reader of PDF documents. -/
def surroundingsWithoutPdf : Surroundings where
  settings := .standard
  fingerprintBlocks := 20
  now := ""
  newId := toString
  readPdf _ := .error "no PDF document"

/-- A request for the fingerprint of a document with so many pages and no blocks. -/
def fingerprintRequest (pages : Float) : Request where
  method := .post
  target := "/layout/fingerprint"
  requestId := none
  body := some (.map [("layout", .map [("page_count", .num pages), ("blocks", .list [])])])

theorem wellFormed_fingerprintRequest (pages : Float) : (fingerprintRequest pages).WellFormed where
  path := by
    show ∀ part ∈ (Target.ofText "/layout/fingerprint").path,
      (Percent.decode? (String.ofList part)).isSome = true
    decide +kernel
  body := by
    rintro v hv
    cases hv
    exact .inr ⟨_, rfl⟩

theorem fails_fingerprintRequest :
    (fingerprintRequest 4294967296.0).Fails surroundingsWithoutPdf .empty := by
  refine ⟨.fingerprint, by decide +kernel, ⟨_⟩, rfl, ?_⟩
  refine ⟨⟨none, 4294967296.0, [], [], none, none⟩, ?_, rfl, ?_⟩
  · rfl
  · decide +kernel

theorem status_exchanges_fingerprint :
    (∀ r ∈ [fingerprintRequest 4294967296.0], r.WellFormed) ∧
      (Service.empty.respondAll surroundingsWithoutPdf
        [fingerprintRequest 4294967296.0]).map (·.status) = [500] := by
  have hwell : ∀ r ∈ [fingerprintRequest 4294967296.0], r.WellFormed := by
    simpa using wellFormed_fingerprintRequest _
  obtain ⟨hall, hstatus⟩ := status_exchanges surroundingsWithoutPdf hwell
  refine ⟨hwell, ?_⟩
  rw [← hall]
  obtain ⟨h, -⟩ | ⟨-, h⟩ := hstatus _ List.mem_cons_self
  · exact congrArg ([·]) h
  · exact absurd fails_fingerprintRequest h

/-- Not only requests to run a processor are answered with the number 500. -/
theorem status_of_oversized :
    ¬ ∀ rs : List Request, (∀ r ∈ rs, r.WellFormed) →
      ∀ t ∈ Service.empty.exchanges surroundingsWithoutPdf rs, t.response.status = 500 →
        ∃ id, Endpoint.ofRequest t.request.method t.request.target =
          .ok (.executeProcessor id) := by
  intro h
  have hwell := wellFormed_fingerprintRequest 4294967296.0
  have hstatus : (Service.empty.respond surroundingsWithoutPdf
      (fingerprintRequest 4294967296.0)).1.status = 500 := by
    obtain ⟨h500, -⟩ | ⟨-, hfails⟩ := status_respond sound_empty hwell
    · exact h500
    · exact absurd fails_fingerprintRequest hfails
  obtain ⟨id, hid⟩ := h [fingerprintRequest 4294967296.0] (by simpa using hwell) _
    List.mem_cons_self hstatus
  have hendpoint : Endpoint.ofRequest .post "/layout/fingerprint" = .ok .fingerprint := by
    decide +kernel
  cases hendpoint.symm.trans hid

end PageExtract
