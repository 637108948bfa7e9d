/-
What a service stores, counts and lists.

After any commands, in any order, the stored processors and their counts are told by the events of
the steps alone: by the last creation of each processor, and by the runs since then.

* `ServiceEvent.Since` — the events since the last creation of a processor that is still there;
* `ServiceEvent.IsStored` — whether a processor has been created and not been deleted since;
* `ServiceEvent.ArrivedAt` — when a processor was created for the first time since it was absent;
* `ServiceEvent.Precedes` — the order of arrival;
* `ServiceEvent.Accounts`, `Accounts.snoc` — what events say of what is stored, and that one more
  event keeps it so;
* `service_accounts` — what a service stores, counts and lists after any commands.
-/
import Mathlib.Data.List.Induction
import Mathlib.Data.List.Nodup
import PageExtract.Proofs.Service.Events

namespace PageExtract

/-! ### What events say -/

namespace ServiceEvent

/-- Whether an event is the creation of the processor of an id. -/
def creates (id : String) : ServiceEvent → Bool
  | created p => p.id == id
  | _ => false

/-- Whether an event is the deletion of the processor of an id. -/
def deletes (id : String) : ServiceEvent → Bool
  | deleted id' => id' == id
  | _ => false

/-- Whether an event is a run of the processor of an id with a certain outcome. -/
def counts (id : String) (success : Bool) : ServiceEvent → Bool
  | ran id' success' => id' == id && success' == success
  | _ => false

/-- Whether `since` are the events after the last creation of a processor, and it has not been
deleted since. -/
def Since (events : List ServiceEvent) (p : Processor) (since : List ServiceEvent) : Prop :=
  ∃ before, events = before ++ created p :: since ∧
    ∀ e ∈ since, e.creates p.id = false ∧ e.deletes p.id = false

/-- Whether the processor of an id has been created and not been deleted after its last creation. -/
def IsStored (events : List ServiceEvent) (id : String) : Prop :=
  ∃ p since, p.id = id ∧ Since events p since

/-- Whether so many events came before the first creation of the processor of an id since it was
last absent. -/
def ArrivedAt (events : List ServiceEvent) (id : String) (n : Nat) : Prop :=
  ∃ before e since, events = before ++ e :: since ∧ before.length = n ∧ e.creates id = true ∧
    ¬ IsStored before id ∧ ∀ d ∈ since, d.deletes id = false

variable {events : List ServiceEvent} {e : ServiceEvent} {id : String}

theorem append_cons_eq_snoc {α : Type} {xs ys zs : List α} {x y : α}
    (h : xs ++ [x] = ys ++ y :: zs) :
    (zs = [] ∧ ys = xs ∧ y = x) ∨ ∃ zs', zs = zs' ++ [x] ∧ xs = ys ++ y :: zs' := by
  induction zs using List.reverseRecOn with
  | nil =>
    obtain ⟨hxs, hx⟩ := List.append_inj' h rfl
    exact .inl ⟨rfl, hxs.symm, (List.singleton_inj.1 hx).symm⟩
  | append_singleton zs z _ =>
    have h' : xs ++ [x] = (ys ++ y :: zs) ++ [z] := by simpa using h
    obtain ⟨hxs, hx⟩ := List.append_inj' h' rfl
    obtain rfl := List.singleton_inj.1 hx
    exact .inr ⟨zs, rfl, hxs⟩

theorem since_nil {p : Processor} {since : List ServiceEvent} : ¬ Since [] p since := by
  rintro ⟨before, h, -⟩
  cases before <;> cases h

theorem since_snoc {p : Processor} {since : List ServiceEvent} :
    Since (events ++ [e]) p since ↔ (e = created p ∧ since = []) ∨
      ∃ since', since = since' ++ [e] ∧ Since events p since' ∧ e.creates p.id = false ∧
        e.deletes p.id = false := by
  constructor
  · rintro ⟨before, h, hsince⟩
    obtain ⟨rfl, -, he⟩ | ⟨since', rfl, h'⟩ := append_cons_eq_snoc h
    · exact .inl ⟨he.symm, rfl⟩
    · rw [List.forall_mem_append] at hsince
      exact .inr ⟨since', rfl, ⟨before, h', hsince.1⟩, hsince.2 e List.mem_cons_self⟩
  · rintro (⟨rfl, rfl⟩ | ⟨since', rfl, ⟨before, rfl, hsince⟩, he⟩)
    · exact ⟨events, rfl, by simp⟩
    · refine ⟨before, by simp, ?_⟩
      rw [List.forall_mem_append]
      exact ⟨hsince, by simpa using he⟩

theorem creates_iff : e.creates id = true ↔ ∃ p, e = created p ∧ p.id = id := by
  cases e <;> simp [creates]

theorem deletes_deleted_eq_false {id' : String} : (deleted id').deletes id = false ↔ id ≠ id' := by
  rw [deletes, beq_eq_false_iff_ne, ne_comm]

theorem deletes_of_creates (h : e.creates id = true) : e.deletes id = false := by
  obtain ⟨p, rfl, -⟩ := creates_iff.1 h
  rfl

theorem not_isStored_nil : ¬ IsStored [] id := by
  rintro ⟨p, since, -, h⟩
  exact since_nil h

theorem isStored_snoc :
    IsStored (events ++ [e]) id ↔
      e.creates id = true ∨ (IsStored events id ∧ e.deletes id = false) := by
  constructor
  · rintro ⟨p, since, rfl, h⟩
    obtain ⟨rfl, -⟩ | ⟨since', -, h', -, hdeletes⟩ := since_snoc.1 h
    · exact .inl (by simp [creates])
    · exact .inr ⟨⟨p, since', rfl, h'⟩, hdeletes⟩
  · rintro (h | ⟨⟨p, since, rfl, h⟩, hdeletes⟩)
    · obtain ⟨p, rfl, rfl⟩ := creates_iff.1 h
      exact ⟨p, [], rfl, since_snoc.2 (.inl ⟨rfl, rfl⟩)⟩
    · cases hcreates : e.creates p.id with
      | true =>
        obtain ⟨q, rfl, hq⟩ := creates_iff.1 hcreates
        exact ⟨q, [], hq, since_snoc.2 (.inl ⟨rfl, rfl⟩)⟩
      | false =>
        exact ⟨p, since ++ [e], rfl, since_snoc.2 (.inr ⟨since, rfl, h, hcreates, hdeletes⟩)⟩

theorem arrivedAt_snoc {n : Nat} :
    ArrivedAt (events ++ [e]) id n ↔
      (n = events.length ∧ e.creates id = true ∧ ¬ IsStored events id) ∨
        (ArrivedAt events id n ∧ e.deletes id = false) := by
  constructor
  · rintro ⟨before, d, since, h, rfl, hcreates, habsent, hsince⟩
    obtain ⟨rfl, rfl, rfl⟩ | ⟨since', rfl, h'⟩ := append_cons_eq_snoc h
    · exact .inl ⟨rfl, hcreates, habsent⟩
    · rw [List.forall_mem_append] at hsince
      exact .inr ⟨⟨before, d, since', h', rfl, hcreates, habsent, hsince.1⟩,
        hsince.2 e List.mem_cons_self⟩
  · rintro (⟨rfl, hcreates, habsent⟩ | ⟨⟨before, d, since, rfl, hn, hcreates, habsent, h⟩, he⟩)
    · exact ⟨events, e, [], rfl, rfl, hcreates, habsent, by simp⟩
    · refine ⟨before, d, since ++ [e], by simp, hn, hcreates, habsent, ?_⟩
      rw [List.forall_mem_append]
      exact ⟨h, by simpa using he⟩

/-- What has arrived is stored. -/
theorem ArrivedAt.isStored {n : Nat} (h : ArrivedAt events id n) : IsStored events id := by
  induction events using List.reverseRecOn with
  | nil =>
    obtain ⟨before, d, since, h, -⟩ := h
    cases before <;> cases h
  | append_singleton events e ih =>
    refine isStored_snoc.2 ?_
    obtain ⟨-, hcreates, -⟩ | ⟨h', hdeletes⟩ := arrivedAt_snoc.1 h
    · exact .inl hcreates
    · exact .inr ⟨ih h', hdeletes⟩

theorem ArrivedAt.lt {n : Nat} (h : ArrivedAt events id n) : n < events.length := by
  obtain ⟨before, d, since, rfl, rfl, -⟩ := h
  simp

/-- What is stored has arrived. -/
theorem IsStored.exists_arrivedAt (h : IsStored events id) : ∃ n, ArrivedAt events id n := by
  induction events using List.reverseRecOn with
  | nil => exact (not_isStored_nil h).elim
  | append_singleton events e ih =>
    by_cases hbefore : IsStored events id
    · obtain ⟨n, hn⟩ := ih hbefore
      have hdeletes : e.deletes id = false := by
        obtain hcreates | ⟨-, hdeletes⟩ := isStored_snoc.1 h
        · exact deletes_of_creates hcreates
        · exact hdeletes
      exact ⟨n, arrivedAt_snoc.2 (.inr ⟨hn, hdeletes⟩)⟩
    · obtain hcreates | ⟨hstored, -⟩ := isStored_snoc.1 h
      · exact ⟨events.length, arrivedAt_snoc.2 (.inl ⟨rfl, hcreates, hbefore⟩)⟩
      · exact absurd hstored hbefore

/-- What has arrived did so once. -/
theorem ArrivedAt.unique {m n : Nat} (hm : ArrivedAt events id m) (hn : ArrivedAt events id n) :
    m = n := by
  induction events using List.reverseRecOn with
  | nil => exact absurd hm.lt (Nat.not_lt_zero m)
  | append_singleton events e ih =>
    obtain ⟨rfl, -, habsent⟩ | ⟨hm', -⟩ := arrivedAt_snoc.1 hm
    · obtain ⟨rfl, -⟩ | ⟨hn', -⟩ := arrivedAt_snoc.1 hn
      · rfl
      · exact absurd hn'.isStored habsent
    · obtain ⟨-, -, habsent⟩ | ⟨hn', -⟩ := arrivedAt_snoc.1 hn
      · exact absurd hm'.isStored habsent
      · exact ih hm' hn'

/-- Whether the processor of one id arrived before that of another one. -/
def Precedes (events : List ServiceEvent) (a b : String) : Prop :=
  ∃ i j, ArrivedAt events a i ∧ ArrivedAt events b j ∧ i < j

theorem Precedes.ne {a b : String} (h : Precedes events a b) : a ≠ b := by
  rintro rfl
  obtain ⟨i, j, hi, hj, hij⟩ := h
  exact hij.ne (hi.unique hj)

theorem Precedes.snoc {a b : String} (h : Precedes events a b) (ha : e.deletes a = false)
    (hb : e.deletes b = false) : Precedes (events ++ [e]) a b := by
  obtain ⟨i, j, hi, hj, hij⟩ := h
  exact ⟨i, j, arrivedAt_snoc.2 (.inr ⟨hi, ha⟩), arrivedAt_snoc.2 (.inr ⟨hj, hb⟩), hij⟩

/-! ### What is stored -/

/-- What events say of what is stored: which processors there are, in which order, and how often
each of them has run. -/
structure Accounts (events : List ServiceEvent) (stored : Members StoredProcessor) : Prop where
  mem_iff : ∀ id, id ∈ Members.names stored ↔ IsStored events id
  order : (Members.names stored).Pairwise (Precedes events)
  counts : ∀ p since, Since events p since → Members.get? stored p.id =
    some ⟨p, since.countP (counts p.id true), since.countP (counts p.id false)⟩

theorem accounts_nil : Accounts [] [] where
  mem_iff _ := ⟨fun h => (List.not_mem_nil h).elim, fun h => (not_isStored_nil h).elim⟩
  order := List.Pairwise.nil
  counts _ _ h := (since_nil h).elim

/-- A run leaves the names alone. -/
theorem names_apply_ran (id : String) (success : Bool) (stored : Members StoredProcessor) :
    Members.names ((ran id success).apply stored) = Members.names stored := by
  rw [apply]
  cases hget : Members.get? stored id with
  | none => rfl
  | some s =>
    have hmem : id ∈ Members.names stored := List.mem_map_of_mem (Members.mem_of_get hget)
    rw [Members.names_put, if_pos hmem]

/-- A processor that an event neither creates nor deletes has its run counted, if it is one. -/
theorem get?_apply {stored : Members StoredProcessor} {p : Processor} {m n : Nat}
    (hget : Members.get? stored p.id = some ⟨p, m, n⟩) (hcreates : e.creates p.id = false)
    (hdeletes : e.deletes p.id = false) :
    Members.get? (e.apply stored) p.id =
      some ⟨p, m + [e].countP (counts p.id true), n + [e].countP (counts p.id false)⟩ := by
  cases e with
  | created q =>
    have hq : q.id ≠ p.id := by simpa [creates] using hcreates
    rw [apply, Members.get?_put, if_neg hq, hget]
    rfl
  | deleted id =>
    rw [apply, Members.get?_erase_of_ne (deletes_deleted_eq_false.1 hdeletes), hget]
    rfl
  | ran id success =>
    -- Only a run of the same processor counts.
    by_cases hid : id = p.id
    · rw [apply, hid, hget]
      cases success <;> simp [Members.get?_put, StoredProcessor.tally, ServiceEvent.counts]
    · have hother : ∀ b, [ran id success].countP (ServiceEvent.counts p.id b) = 0 := by
        intro b
        simp [ServiceEvent.counts, hid]
      rw [hother, hother, apply]
      cases Members.get? stored id with
      | none => exact hget
      | some s => rwa [Members.get?_put, if_neg hid]
  | nothing => exact hget

namespace Accounts

variable {stored : Members StoredProcessor}

theorem counts_snoc (h : Accounts events stored) (e : ServiceEvent) (p : Processor)
    (since : List ServiceEvent) (hsince : Since (events ++ [e]) p since) :
    Members.get? (e.apply stored) p.id =
      some ⟨p, since.countP (ServiceEvent.counts p.id true),
        since.countP (ServiceEvent.counts p.id false)⟩ := by
  obtain ⟨rfl, rfl⟩ | ⟨since', rfl, hsince', hcreates, hdeletes⟩ := since_snoc.1 hsince
  · rw [apply, Members.get?_put, if_pos rfl]
    rfl
  · rw [List.countP_append, List.countP_append]
    exact get?_apply (h.counts p since' hsince') hcreates hdeletes

theorem mem_iff_snoc (h : Accounts events stored) (e : ServiceEvent) (id : String) :
    id ∈ Members.names (e.apply stored) ↔ IsStored (events ++ [e]) id := by
  rw [isStored_snoc, ← h.mem_iff]
  cases e with
  | created p =>
    rw [apply, Members.names_put]
    by_cases hp : p.id ∈ Members.names stored
    · rw [if_pos hp]
      simp only [creates, deletes, beq_iff_eq, and_true]
      refine ⟨.inr, ?_⟩
      rintro (rfl | hid)
      · exact hp
      · exact hid
    · rw [if_neg hp, List.mem_append, List.mem_singleton, or_comm, eq_comm]
      simp [creates, deletes]
  | deleted id' =>
    rw [apply, Members.names_erase, List.mem_filter, deletes_deleted_eq_false]
    simp [creates]
  | ran id' success => simp [names_apply_ran, creates, deletes]
  | nothing => simp [apply, creates, deletes]

theorem order_snoc (h : Accounts events stored) (e : ServiceEvent) :
    (Members.names (e.apply stored)).Pairwise (Precedes (events ++ [e])) := by
  have hkeep : (∀ id, e.deletes id = false) →
      (Members.names stored).Pairwise (Precedes (events ++ [e])) :=
    fun hdeletes => h.order.imp fun hab => hab.snoc (hdeletes _) (hdeletes _)
  cases e with
  | created p =>
    rw [apply, Members.names_put]
    by_cases hp : p.id ∈ Members.names stored
    · rw [if_pos hp]
      exact hkeep fun _ => rfl
    · -- A processor that was absent arrives after all that are there.
      have hlast : ArrivedAt (events ++ [created p]) p.id events.length :=
        arrivedAt_snoc.2 (.inl ⟨rfl, by simp [creates], fun hp' => hp ((h.mem_iff p.id).2 hp')⟩)
      rw [if_neg hp, List.pairwise_append]
      refine ⟨hkeep fun _ => rfl, List.pairwise_singleton _ _, fun a ha b hb => ?_⟩
      obtain rfl := List.mem_singleton.1 hb
      obtain ⟨i, hi⟩ := ((h.mem_iff a).1 ha).exists_arrivedAt
      exact ⟨i, events.length, arrivedAt_snoc.2 (.inr ⟨hi, rfl⟩), hlast, hi.lt⟩
  | deleted id =>
    rw [apply, Members.names_erase]
    refine (h.order.filter _).imp_of_mem fun ha hb hab => hab.snoc ?_ ?_
    · exact deletes_deleted_eq_false.2 (bne_iff_ne.1 (List.mem_filter.1 ha).2)
    · exact deletes_deleted_eq_false.2 (bne_iff_ne.1 (List.mem_filter.1 hb).2)
  | ran id success =>
    rw [names_apply_ran]
    exact hkeep fun _ => rfl
  | nothing => exact hkeep fun _ => rfl

/-- One more event keeps what events say of what is stored. -/
theorem snoc (h : Accounts events stored) (e : ServiceEvent) :
    Accounts (events ++ [e]) (e.apply stored) where
  mem_iff := h.mem_iff_snoc e
  order := h.order_snoc e
  counts := h.counts_snoc e

/-- The names of what is stored are the ids of the processors. -/
theorem name_eq_id (h : Accounts events stored) {m : String × StoredProcessor}
    (hm : m ∈ stored) : m.1 = m.2.processor.id := by
  obtain ⟨p, since, hid, hsince⟩ := (h.mem_iff m.1).1 (List.mem_map_of_mem hm)
  have hget := hid ▸ h.counts p since hsince
  -- The name leads to a processor of that id, and to one member only.
  have hnodup : (Members.names stored).Nodup := h.order.imp Precedes.ne
  have hmem := Members.mem_of_get hget
  have hsame : m = (m.1, _) := List.inj_on_of_nodup_map hnodup hm hmem rfl
  rw [hsame]
  exact hid.symm

end Accounts

/-- What events say of what is stored when nothing was stored before them. -/
theorem accounts_foldl (events : List ServiceEvent) :
    Accounts events (events.foldl apply []) := by
  -- What an event does depends on those before it, so the last one is taken off first.
  induction events using List.reverseRecOn with
  | nil => exact accounts_nil
  | append_singleton events e ih =>
    rw [List.foldl_append]
    exact ih.snoc e

end ServiceEvent

/-! ### Services -/

/-- The ids that a list of a service shows. -/
def Service.listedIds (s : Service) (documentType : Option String) : List String :=
  (s.list documentType).map (·.id)

/-- A list shows the names of what is stored, or some of them. -/
theorem Service.listedIds_sublist {s : Service} (hids : ∀ m ∈ s.stored, m.1 = m.2.processor.id)
    (documentType : Option String) :
    (s.listedIds documentType).Sublist (Members.names s.stored) := by
  have hnames : Members.names s.stored = s.stored.map fun m => m.2.processor.id :=
    List.map_congr_left hids
  rw [hnames, listedIds, list, List.map_map]
  exact List.filter_sublist.map _

/-- A list of all processors shows whatever is stored. -/
theorem Service.list_none (s : Service) : s.list none = s.stored.map fun m => m.2.summary :=
  congrArg (List.map _) (List.filter_true s.stored)

theorem Service.summary_mem_list {s : Service} {m : String × StoredProcessor}
    (hm : m ∈ s.stored) : m.2.summary ∈ s.list none :=
  s.list_none ▸ List.mem_map_of_mem hm

theorem Service.listedIds_none {s : Service} (hids : ∀ m ∈ s.stored, m.1 = m.2.processor.id) :
    s.listedIds none = Members.names s.stored := by
  rw [listedIds, list_none, List.map_map]
  exact (List.map_congr_left hids).symm

/-- What a service that was empty stores, counts and lists after any commands. A processor is there
exactly if it has been created and not been deleted since; the lists have them in the order in which
they arrived; the counts of each are of its runs since its last creation; and a step that fails, but
for a missing anchor, changes nothing that is stored. -/
theorem service_accounts (env : Surroundings) (cs : List ServiceCommand) :
    let steps := Service.empty.history env cs
    let events := steps.map ServiceStep.event
    let s := Service.empty.after env cs
    (∀ id, (∃ p, s.get id = .ok p) ↔ ServiceEvent.IsStored events id) ∧
      (∀ id, id ∈ s.listedIds none ↔ ServiceEvent.IsStored events id) ∧
      (∀ documentType, (s.listedIds documentType).Pairwise (ServiceEvent.Precedes events)) ∧
      (∀ p since, ServiceEvent.Since events p since →
        ∃ kept, s.find p.id = .ok kept ∧ kept.summary ∈ s.list none ∧ kept.processor = p ∧
          kept.successes = since.countP (ServiceEvent.counts p.id true) ∧
          kept.failures = since.countP (ServiceEvent.counts p.id false)) ∧
      ∀ t ∈ steps, ∀ e, t.answer = .error e → (∀ a, e ≠ .execution (.missingAnchor a)) →
        (t.before.step env t.command).2.stored = t.before.stored := by
  intro steps events s
  have hstored : s.stored = events.foldl ServiceEvent.apply [] := stored_after env .empty cs
  have haccounts : ServiceEvent.Accounts events s.stored :=
    hstored ▸ ServiceEvent.accounts_foldl events
  have hids : ∀ m ∈ s.stored, m.1 = m.2.processor.id := fun _ hm => haccounts.name_eq_id hm
  refine ⟨fun id => ?_, fun id => ?_, fun documentType => ?_, fun p since hsince => ?_,
    fun t ht e he hother => ?_⟩
  · rw [← haccounts.mem_iff, ← Members.has_iff]
    unfold Service.get Service.find Members.has
    cases Members.get? s.stored id <;> simp [Except.map]
  · rw [Service.listedIds_none hids, haccounts.mem_iff]
  · exact haccounts.order.sublist (Service.listedIds_sublist hids documentType)
  · have hget := haccounts.counts p since hsince
    refine ⟨_, (find_eq_ok_iff s).2 hget, ?_, rfl, rfl, rfl⟩
    exact Service.summary_mem_list (Members.mem_of_get hget)
  · exact stored_step_of_error ((answer_of_mem_history ht).symm.trans he) hother

end PageExtract
