/-
The choice of a processor.

A processor that was made for the fingerprint of a layout comes first. Else scores decide: the
share of its text patterns that the layout shows. The choice is made in one pass that keeps the best
processor so far, and a later one takes its place only if its score is greater. So the choice is the
first of the best:

* `Layout.Shows`, `Processor.Scores` — texts that a layout shows, and scores;
* `ProcessorMatch.IsFirstBest`, `ProcessorMatch.IsFirstBest.unique` — the first processor that no
  score is above;
* `leads_betterByText`, `leads_foldl` — what one step of the pass keeps, and the whole pass;
* `matchProcessor_best` — the choice, and processors that are added.
-/
import PageExtract.Processor.Routing
import PageExtract.Proofs.Number.Order

namespace PageExtract

variable {ν : Type}

/-- A layout shows a text if the text occurs in its blocks, with spaces between them and ignoring
case. -/
def Layout.Shows (l : Layout ν) (t : String) : Prop :=
  ∃ before after, Text.units (Text.lower (" ".intercalate (l.blocks.map (·.text)))) =
    before ++ Text.units (Text.lower t) ++ after

theorem Layout.contains_iff (l : Layout ν) (t : String) :
    Text.contains (Text.lower l.text) (Text.lower t) = true ↔ l.Shows t := Text.occursIn_iff

instance (l : Layout ν) : DecidablePred l.Shows := fun t => decidable_of_iff _ (l.contains_iff t)

variable [Numeric ν]

/-- A processor scores the share of its text patterns that a layout shows. Without text patterns it
has no score. -/
def Processor.Scores (l : Layout ν) (p : Processor) (score : ν) : Prop :=
  p.textPatterns ≠ [] ∧
    score = Numeric.ofNat (p.textPatterns.countP fun t => decide (l.Shows t)) /
      Numeric.ofNat p.textPatterns.length

theorem Processor.textScore?_eq_some_iff {l : Layout ν} {p : Processor} {score : ν} :
    p.textScore? (Text.lower l.text) = some score ↔ p.Scores l score := by
  have hhits : p.textHits (Text.lower l.text) =
      p.textPatterns.countP fun t => decide (l.Shows t) := by
    rw [textHits, ← List.countP_eq_length_filter]
    refine List.countP_congr fun t _ => ?_
    rw [l.contains_iff, decide_eq_true_iff]
  unfold textScore? Scores
  rw [hhits]
  cases p.textPatterns with
  | nil => simp
  | cons t ts => simp [eq_comm]

/-! ### The first of the best -/

/-- A choice by text patterns: no score is above that of the processor, and no score before it is as
great. -/
structure ProcessorMatch.IsFirstBest (l : Layout Float) (ps : List Processor)
    (m : ProcessorMatch Float) : Prop where
  reason : m.reason = .textPatterns
  scores : m.processor.Scores l m.score
  positive : 0.0 < m.score
  greatest : ∀ p ∈ ps, ∀ score, p.Scores l score → ¬ m.score < score
  first : ∃ before after, ps = before ++ m.processor :: after ∧
    ∀ p ∈ before, ∀ score, p.Scores l score → ¬ m.score ≤ score

namespace ProcessorMatch.IsFirstBest

variable {l : Layout Float} {ps : List Processor} {m m' : ProcessorMatch Float}

theorem mem (h : m.IsFirstBest l ps) : m.processor ∈ ps := by
  obtain ⟨before, after, rfl, -⟩ := h.first
  exact List.mem_append_right before List.mem_cons_self

theorem number (h : m.IsFirstBest l ps) : m.score ≤ m.score :=
  Double.number_of_ge (Double.le_of_lt h.positive)

/-- Neither of two best processors stands before the other. -/
theorem not_before (h : m.IsFirstBest l ps) (h' : m'.IsFirstBest l ps) {before : List Processor}
    (hfirst : ∀ p ∈ before, ∀ score, p.Scores l score → ¬ m'.score ≤ score) :
    m.processor ∉ before := by
  intro hmem
  have hle : m'.score ≤ m.score :=
    Double.le_of_not_lt_number h.number h'.number (h.greatest _ h'.mem _ h'.scores)
  exact hfirst _ hmem _ h.scores hle

theorem unique (h : m.IsFirstBest l ps) (h' : m'.IsFirstBest l ps) : m = m' := by
  obtain ⟨before, after, hps, hfirst⟩ := h.first
  obtain ⟨before', after', hps', hfirst'⟩ := h'.first
  have hnot := not_before h h' hfirst'
  have hnot' := not_before h' h hfirst
  have hprocessor : m.processor = m'.processor := by
    obtain ⟨middle, hbefore, hrest⟩ | ⟨middle, hbefore, hrest⟩ :=
      List.append_eq_append_iff.1 (hps.symm.trans hps')
    · cases middle with
      | nil => exact (List.cons.inj hrest).1
      | cons p middle =>
        obtain ⟨rfl, -⟩ := List.cons.inj hrest
        exact absurd (hbefore ▸ List.mem_append_right before List.mem_cons_self) hnot
    · cases middle with
      | nil => exact (List.cons.inj hrest).1.symm
      | cons p middle =>
        obtain ⟨rfl, -⟩ := List.cons.inj hrest
        exact absurd (hbefore ▸ List.mem_append_right before' List.mem_cons_self) hnot'
  have hscore : m.score = m'.score := by
    rw [h.scores.2, h'.scores.2, hprocessor]
  cases m
  cases m'
  obtain rfl := h.reason
  obtain rfl := h'.reason
  obtain rfl := hprocessor
  obtain rfl := hscore
  rfl

end ProcessorMatch.IsFirstBest

/-! ### The pass -/

/-- What holds of the best choice among the processors that were looked at. -/
def Leads (l : Layout Float) (seen : List Processor) : Option (ProcessorMatch Float) → Prop
  | none => ∀ p ∈ seen, ∀ score, p.Scores l score → ¬ 0.0 < score
  | some m => m.IsFirstBest l seen

section

variable {l : Layout Float} {seen : List Processor} {best : Option (ProcessorMatch Float)}

/-- A processor that does not beat the best one leaves it in its place. -/
theorem Leads.keep (h : Leads l seen best) {p : Processor}
    (hp : ∀ score, p.Scores l score → beats score best = false) : Leads l (seen ++ [p]) best := by
  cases best with
  | none =>
    intro q hq score hscore
    obtain hq | hq := List.mem_append.1 hq
    · exact h q hq score hscore
    · obtain rfl := List.mem_singleton.1 hq
      simpa [beats] using hp score hscore
  | some m =>
    have h : m.IsFirstBest l seen := h
    obtain ⟨before, after, hseen, hfirst⟩ := h.first
    refine ⟨h.reason, h.scores, h.positive, fun q hq score hscore => ?_,
      before, after ++ [p], by rw [hseen, List.append_assoc, List.cons_append], hfirst⟩
    obtain hq | hq := List.mem_append.1 hq
    · exact h.greatest q hq score hscore
    · obtain rfl := List.mem_singleton.1 hq
      intro hgreater
      have hbeats := hp score hscore
      rw [beats, decide_eq_true (Double.lt_trans h.positive hgreater),
        decide_eq_true hgreater] at hbeats
      cases hbeats

/-- A processor that beats the best one is the first that is as good. -/
theorem Leads.replace (h : Leads l seen best) {p : Processor} {score : Float}
    (hp : p.Scores l score) (hbeats : beats score best = true) :
    Leads l (seen ++ [p]) (some ⟨p, .textPatterns, score⟩) := by
  have hpositive : 0.0 < score := by
    cases best with
    | none => exact of_decide_eq_true hbeats
    | some m => exact of_decide_eq_true (Bool.and_eq_true_iff.1 hbeats).1
  have hbefore : ∀ q ∈ seen, ∀ other, q.Scores l other → ¬ score ≤ other := by
    intro q hq other hother hle
    cases best with
    | none => exact h q hq other hother (Double.lt_of_lt_of_le hpositive hle)
    | some m =>
      have hgreater : m.score < score := of_decide_eq_true (Bool.and_eq_true_iff.1 hbeats).2
      have h : m.IsFirstBest l seen := h
      exact h.greatest q hq other hother (Double.lt_of_lt_of_le hgreater hle)
  refine ⟨rfl, hp, hpositive, fun q hq other hother => ?_, seen, [], rfl, hbefore⟩
  obtain hq | hq := List.mem_append.1 hq
  · exact fun hlt => hbefore q hq other hother (Double.le_of_lt hlt)
  · obtain rfl := List.mem_singleton.1 hq
    obtain rfl : other = score := hother.2.trans hp.2.symm
    exact Double.lt_irrefl other

/-- One step of the pass keeps the first of the best. -/
theorem leads_betterByText (h : Leads l seen best) (p : Processor) :
    Leads l (seen ++ [p]) (betterByText (Text.lower l.text) best p) := by
  unfold betterByText
  cases hscore : p.textScore? (ν := Float) (Text.lower l.text) with
  | none =>
    -- Without text patterns there is no score to compare.
    refine h.keep fun score hp => ?_
    have hsome := Processor.textScore?_eq_some_iff.2 hp
    rw [hscore] at hsome
    cases hsome
  | some score =>
    have hp := Processor.textScore?_eq_some_iff.1 hscore
    simp only
    by_cases hbeats : beats score best = true
    · rw [if_pos hbeats]
      exact h.replace hp hbeats
    · rw [if_neg hbeats]
      refine h.keep fun other hother => ?_
      obtain rfl : other = score := hother.2.trans hp.2.symm
      exact Bool.eq_false_iff.2 hbeats

/-- So does the whole pass. -/
theorem leads_foldl (h : Leads l seen best) (ps : List Processor) :
    Leads l (seen ++ ps) (ps.foldl (betterByText (Text.lower l.text)) best) := by
  induction ps generalizing seen best with
  | nil => rwa [List.append_nil]
  | cons p ps ih =>
    have hstep := ih (leads_betterByText h p)
    rwa [List.append_assoc] at hstep

end

/-! ### The choice -/

section

variable {l : Layout Float} {ps : List Processor}

theorem matchProcessor_of_fingerprint {before after : List Processor} {p : Processor}
    (hbefore : ∀ q ∈ before, q.fingerprint ≠ some l.fingerprint)
    (hp : p.fingerprint = some l.fingerprint) :
    matchProcessor l (before ++ p :: after) = some ⟨p, .fingerprint, 1.0⟩ := by
  have hfind : (before ++ p :: after).find? (fun q => q.fingerprint == some l.fingerprint) =
      some p := by
    refine List.find?_eq_some_iff_append.2 ⟨by simp [hp], before, after, rfl, fun q hq => ?_⟩
    simpa using hbefore q hq
  unfold matchProcessor
  rw [hfind]

theorem matchProcessor_of_no_fingerprint
    (hps : ∀ p ∈ ps, p.fingerprint ≠ some l.fingerprint) :
    matchProcessor l ps = ps.foldl (betterByText (Text.lower l.text)) none := by
  have hfind : ps.find? (fun q => q.fingerprint == some l.fingerprint) = none :=
    List.find?_eq_none.2 fun p hp => by simpa using hps p hp
  unfold matchProcessor
  rw [hfind]

theorem leads_matchProcessor (hps : ∀ p ∈ ps, p.fingerprint ≠ some l.fingerprint) :
    Leads l ps (matchProcessor l ps) := by
  have hstart : Leads l [] none := fun p hp => absurd hp List.not_mem_nil
  rw [matchProcessor_of_no_fingerprint hps]
  exact leads_foldl hstart ps

/-- A processor at the end that does not beat the choice leaves it in its place. -/
theorem matchProcessor_concat {q : Processor} (hq : q.fingerprint ≠ some l.fingerprint)
    {m : ProcessorMatch Float} (hm : matchProcessor l ps = some m)
    (hscore : ∀ score, q.Scores l score → ¬ m.score < score) :
    matchProcessor l (ps ++ [q]) = some m := by
  by_cases hps : ∀ p ∈ ps, p.fingerprint ≠ some l.fingerprint
  · have hall : ∀ p ∈ ps ++ [q], p.fingerprint ≠ some l.fingerprint :=
      List.forall_mem_append.2 ⟨hps, List.forall_mem_singleton.2 hq⟩
    rw [matchProcessor_of_no_fingerprint hps] at hm
    rw [matchProcessor_of_no_fingerprint hall, List.foldl_append, hm]
    show betterByText _ (some m) q = some m
    unfold betterByText
    cases htext : q.textScore? (ν := Float) (Text.lower l.text) with
    | none => rfl
    | some score =>
      have hless := hscore score (Processor.textScore?_eq_some_iff.1 htext)
      simp [beats, hless]
  · -- The first processor for the fingerprint is chosen, whatever comes after it.
    cases hfind : ps.find? fun p => p.fingerprint == some l.fingerprint with
    | none =>
      refine absurd (fun p hp => ?_) hps
      simpa using List.find?_eq_none.1 hfind p hp
    | some p =>
      have hlonger : (ps ++ [q]).find? (fun p => p.fingerprint == some l.fingerprint) = some p := by
        rw [List.find?_append, hfind]
        rfl
      unfold matchProcessor at hm ⊢
      rw [hfind] at hm
      rw [hlonger]
      exact hm

end

/-- **The best processor is chosen.** The first processor that was made for the fingerprint of a
layout is chosen with score 1. If there is none, the choice is the first of the best by their text
patterns, and there is no choice exactly if no score is positive. A processor that is added at the
end without the fingerprint, and without a score above that of the choice, does not change it. -/
theorem matchProcessor_best (l : Layout Float) (ps : List Processor) :
    (∀ before p after, ps = before ++ p :: after →
      (∀ q ∈ before, q.fingerprint ≠ some l.fingerprint) → p.fingerprint = some l.fingerprint →
      matchProcessor l ps = some ⟨p, .fingerprint, 1.0⟩) ∧
    ((∀ p ∈ ps, p.fingerprint ≠ some l.fingerprint) →
      (matchProcessor l ps = none ↔ ∀ p ∈ ps, ∀ score, p.Scores l score → ¬ 0.0 < score) ∧
      ∀ m, matchProcessor l ps = some m ↔ m.IsFirstBest l ps) ∧
    ∀ m q, matchProcessor l ps = some m → q.fingerprint ≠ some l.fingerprint →
      (∀ score, q.Scores l score → ¬ m.score < score) → matchProcessor l (ps ++ [q]) = some m := by
  refine ⟨?_, fun hps => ?_, fun m q hm hq hscore => matchProcessor_concat hq hm hscore⟩
  · rintro before p after rfl hbefore hp
    exact matchProcessor_of_fingerprint hbefore hp
  · have hleads := leads_matchProcessor hps
    cases hmatch : matchProcessor l ps with
    | none =>
      rw [hmatch] at hleads
      refine ⟨⟨fun _ => hleads, fun _ => rfl⟩, fun m => ⟨nofun, fun hbest => ?_⟩⟩
      -- The best processor would have a positive score.
      exact absurd hbest.positive (hleads _ hbest.mem _ hbest.scores)
    | some best =>
      rw [hmatch] at hleads
      have hbest : best.IsFirstBest l ps := hleads
      refine ⟨⟨nofun, fun hnone => ?_⟩, fun m => ⟨?_, fun hm => ?_⟩⟩
      · exact absurd hbest.positive (hnone _ hbest.mem _ hbest.scores)
      · rintro ⟨⟩
        exact hbest
      · rw [hbest.unique hm]

/-- A receipt of two blocks. -/
def receipt : Layout Float where
  filename := none
  pageCount := 1.0
  pageSizes := [(1.0, 1.0)]
  blocks := [⟨"a", "Receipt", ⟨0.1, 0.1, 0.3, 0.12, 0.0⟩, 100.0, none, false, .text⟩,
    ⟨"b", "Total 12", ⟨0.1, 0.2, 0.3, 0.22, 0.0⟩, 100.0, none, false, .text⟩]
  fingerprint := "receipt"
  warnings := none

/-- A processor that is found by its text patterns only. -/
def patternProcessor (id : String) (patterns : List String) : Processor where
  id := id
  name := id
  documentType := "generic"
  version := 1.0
  createdAt := ""
  updatedAt := ""
  fingerprint := none
  textPatterns := patterns
  anchors := []
  regions := []
  extractions := []
  calculations := []
  validations := []
  fieldColumns := none

/-- Two processors score 1. The first of them is chosen, after one that scores less and one that has
no score, and another such processor at the end does not change that. -/
theorem matchProcessor_best_receipt :
    let ps := [patternProcessor "invoice" ["Invoice", "Total"], patternProcessor "any" [],
      patternProcessor "receipt" ["receipt total"], patternProcessor "total" ["TOTAL"]]
    let m : ProcessorMatch Float :=
      ⟨patternProcessor "receipt" ["receipt total"], .textPatterns, 1.0⟩
    matchProcessor receipt ps = some m ∧
      matchProcessor receipt (ps ++ [patternProcessor "late" ["12"]]) = some m := by
  intro ps m
  have hps : ∀ p ∈ ps, p.fingerprint ≠ some receipt.fingerprint := by
    simp [ps, patternProcessor]
  have hshown : (["Invoice", "Total"].countP fun t => decide (receipt.Shows t)) = 1 ∧
      (["receipt total"].countP fun t => decide (receipt.Shows t)) = 1 ∧
      (["TOTAL"].countP fun t => decide (receipt.Shows t)) = 1 ∧
      (["12"].countP fun t => decide (receipt.Shows t)) = 1 := by
    decide +kernel
  obtain ⟨hinvoice, hreceipt, htotal, hlate⟩ := hshown
  have hhalf : ∀ score, (patternProcessor "invoice" ["Invoice", "Total"]).Scores receipt score →
      ¬ m.score ≤ score := by
    rintro score ⟨-, rfl⟩
    simp only [patternProcessor, hinvoice]
    show ¬ (1.0 : Float) ≤ Numeric.ofNat 1 / Numeric.ofNat 2
    decide +kernel
  have hone : ∀ {id : String} {t : String}, ([t].countP fun t => decide (receipt.Shows t)) = 1 →
      ∀ score, (patternProcessor id [t]).Scores receipt score → ¬ m.score < score := by
    rintro id t ht score ⟨-, rfl⟩
    simp only [patternProcessor, ht]
    show ¬ (1.0 : Float) < Numeric.ofNat 1 / Numeric.ofNat 1
    decide +kernel
  have hempty : ∀ score : Float, ¬ (patternProcessor "any" []).Scores receipt score :=
    fun score h => h.1 rfl
  have hbest : m.IsFirstBest receipt ps := by
    refine ⟨rfl, ⟨List.cons_ne_nil _ _, ?_⟩, by decide, ?_,
      [patternProcessor "invoice" ["Invoice", "Total"], patternProcessor "any" []],
      [patternProcessor "total" ["TOTAL"]], rfl, ?_⟩
    · simp only [m, patternProcessor, hreceipt]
      show (1.0 : Float) = Numeric.ofNat 1 / Numeric.ofNat 1
      decide +kernel
    · simp only [ps, List.forall_mem_cons]
      exact ⟨fun score h hlt => hhalf score h (Double.le_of_lt hlt),
        fun score h => absurd h (hempty score), hone hreceipt, hone htotal, List.forall_mem_nil _⟩
    · simp only [List.forall_mem_cons]
      exact ⟨hhalf, fun score h => absurd h (hempty score), List.forall_mem_nil _⟩
  obtain ⟨-, hchoice, hadd⟩ := matchProcessor_best receipt ps
  have hmatch := ((hchoice hps).2 m).2 hbest
  exact ⟨hmatch, hadd m _ hmatch (by simp [patternProcessor]) (hone hlate)⟩

end PageExtract
