/-
What is stored can be run.

A processor is checked when it is read, and only what was read is stored. So whatever has been done
with a service, the field paths of all that it stores are paths.

* `Processor.Sound`, `Service.Sound` — the field paths are paths;
* `Processor.Sound.execute` — the outcomes of a run of a sound processor;
* `ServiceEvent.mem_apply` — what is stored after an event was created by it or was there before;
* `Service.Sound.step`, `sound_after` — every step keeps what is stored sound.
-/
import PageExtract.Proofs.Execution.Outcome
import PageExtract.Proofs.Service.Events

namespace PageExtract

/-- Whether the field paths of a processor are paths. -/
def Processor.Sound (p : Processor) : Prop :=
  ∀ path ∈ p.fieldPaths, ∃ q, Path.parse path = .ok q

/-- Whether the field paths of all that a service stores are paths. -/
def Service.Sound (s : Service) : Prop := ∀ m ∈ s.stored, m.2.processor.Sound

/-- A run of a sound processor has a result, unless a required anchor is missing. -/
theorem Processor.Sound.execute {p : Processor} (hp : p.Sound) (s : Settings Float)
    (l : Layout Float) :
    (∃ a, (PageExtract.execute s l p).value = .error (.missingAnchor a)) ∨
      ∃ result, (PageExtract.execute s l p).value = .ok result := by
  rw [value_execute]
  cases (findAnchors l s p.anchors).value with
  | error a => exact .inl ⟨a, rfl⟩
  | ok anchors =>
    obtain ⟨tree, htree⟩ := p.exists_fill (p.inputFor l s anchors) hp
    simp only [htree]
    exact .inr ⟨_, rfl⟩

/-- A processor that is found in a sound service is sound. -/
theorem Service.Sound.find {s : Service} (hs : s.Sound) {id : String} {kept : StoredProcessor}
    (hkept : s.find id = .ok kept) : kept.processor.Sound :=
  hs _ (Members.mem_of_get ((find_eq_ok_iff s).1 hkept))

/-- Whatever is stored after an event was created by it or stored before. -/
theorem ServiceEvent.mem_apply {stored : Members StoredProcessor} {e : ServiceEvent}
    {m : String × StoredProcessor} (hm : m ∈ e.apply stored) :
    e = .created m.2.processor ∨ ∃ m' ∈ stored, m'.2.processor = m.2.processor := by
  cases e with
  | created p =>
    obtain rfl | hm := Members.mem_put hm
    · exact .inl rfl
    · exact .inr ⟨m, hm, rfl⟩
  | deleted id => exact .inr ⟨m, (List.mem_filter.1 hm).1, rfl⟩
  | ran id success =>
    rw [apply] at hm
    cases hget : Members.get? stored id with
    | none =>
      rw [hget] at hm
      exact .inr ⟨m, hm, rfl⟩
    | some kept =>
      rw [hget] at hm
      obtain rfl | hm := Members.mem_put hm
      · refine .inr ⟨(id, kept), Members.mem_of_get hget, ?_⟩
        cases success <;> rfl
      · exact .inr ⟨m, hm, rfl⟩
  | nothing => exact .inr ⟨m, hm, rfl⟩

theorem exists_ofInput_of_create {env : Surroundings} {s : Service}
    {input : Option (Value Float)} {p : Processor} (h : (s.create env input).1 = .ok p) :
    ∃ v, Processor.ofInput env.now v = .ok p := by
  obtain ⟨v, s', -, hcreate⟩ := exists_create_eq env s input
  rw [hcreate] at h
  cases hv : Processor.ofInput env.now v with
  | ok q =>
    rw [hv] at h
    cases h
    exact ⟨v, hv⟩
  | error e =>
    rw [hv] at h
    cases h

/-- Only a creation that succeeds comes to one. -/
theorem ServiceStep.event_eq_created {t : ServiceStep} {p : Processor}
    (h : t.event = .created p) :
    (∃ input, t.command = .create input) ∧ t.answer = .ok (.processor p) := by
  unfold event at h
  split at h
  · rename_i input hcommand
    unfold ServiceEvent.ofCreation at h
    split at h
    · rename_i q hanswer
      cases h
      exact ⟨⟨input, hcommand⟩, hanswer⟩
    · cases h
  · unfold ServiceEvent.ofDeletion at h
    split at h <;> cases h
  · split at h
    · unfold ServiceEvent.ofRun at h
      split at h <;> cases h
    · cases h

theorem exists_ofInput_of_created {env : Surroundings} {s : Service} {c : ServiceCommand}
    {p : Processor} (h : ServiceStep.event ⟨s, c, (s.step env c).1⟩ = .created p) :
    ∃ v, Processor.ofInput env.now v = .ok p := by
  obtain ⟨⟨input, rfl⟩, hanswer⟩ := ServiceStep.event_eq_created h
  have hanswer : (s.create env input).1.map .processor = .ok (ServiceAnswer.processor p) := hanswer
  cases hcreate : (s.create env input).1 with
  | ok q =>
    rw [hcreate] at hanswer
    cases hanswer
    exact exists_ofInput_of_create hcreate
  | error e =>
    rw [hcreate] at hanswer
    cases hanswer

/-- A step keeps what is stored sound. -/
theorem Service.Sound.step {env : Surroundings} {s : Service} (hs : s.Sound)
    (c : ServiceCommand) : (s.step env c).2.Sound := by
  intro m hm
  rw [stored_step] at hm
  obtain hcreated | ⟨m', hm', hsame⟩ := ServiceEvent.mem_apply hm
  · obtain ⟨v, hv⟩ := exists_ofInput_of_created hcreated
    exact fun path hpath => Processor.exists_path_of_ofInput hv hpath
  · exact hsame ▸ hs m' hm'

theorem sound_empty : Service.empty.Sound := fun _ hm => (List.not_mem_nil hm).elim

/-- Some steps keep what is stored sound. -/
theorem Service.Sound.after {env : Surroundings} {s : Service} (hs : s.Sound)
    (cs : List ServiceCommand) : (s.after env cs).Sound := by
  induction cs generalizing s with
  | nil => exact hs
  | cons c cs ih => exact ih (hs.step c)

/-- Whatever has been asked of a service, what it stores is sound. -/
theorem sound_after (env : Surroundings) (cs : List ServiceCommand) :
    (Service.empty.after env cs).Sound :=
  sound_empty.after cs

end PageExtract
