/-
How far the readers of rules go.

A rule has at most one part for each token that it is read from, and what cannot be read is an error
at one of the tokens or at their end. With the same of formulas, both languages settle every source:

* `Rule.size` — the parts of a rule: operators, calls, literals, items, steps of paths, links;
* `Rule.answers_parseOr`, … — one lemma for each reader;
* `Rule.LoopsPay` — what its loops read and take;
* `parse_settles` — a source is read to its end, or refused at a position in it.
-/
import PageExtract.Proofs.Expr.Progress
import PageExtract.Proofs.Rule.Levels

namespace PageExtract

mutual

/-- The number of parts of a rule. -/
def Rule.size : Rule Float → Nat
  | .lit _ => 1
  | .list items => 1 + itemSizes items
  | .dict entries => 1 + entrySizes entries
  | .root => 1
  | .path base ops => base.size + opSizes ops
  | .call _ args => 1 + itemSizes args
  | .not r => 1 + r.size
  | .neg r => 1 + r.size
  | .logic _ l r => 1 + l.size + r.size
  | .arith _ l r => 1 + l.size + r.size
  | .compare first links => first.size + linkSizes links

/-- The number of parts of some rules. -/
def itemSizes : List (Rule Float) → Nat
  | [] => 0
  | r :: rs => r.size + itemSizes rs

/-- The number of parts of the entries of a map. -/
def entrySizes : List (Rule Float × Rule Float) → Nat
  | [] => 0
  | (k, v) :: es => k.size + v.size + entrySizes es

/-- The number of parts of the steps of a path, the steps counted. -/
def opSizes : List (PathOp Float) → Nat
  | [] => 0
  | .member _ :: ops => 1 + opSizes ops
  | .index key :: ops => 1 + key.size + opSizes ops
  | .project :: ops => 1 + opSizes ops
  | .get args :: ops => 1 + itemSizes args + opSizes ops

/-- The number of parts of the links of a chain, the comparisons counted. -/
def linkSizes : List (CompareOp × Rule Float) → Nat
  | [] => 0
  | (_, r) :: links => 1 + r.size + linkSizes links

end

namespace Rule

variable (stop : Token)

/-- A comparison operator is read off the front. -/
theorem suffix_of_compareOp? {ts : List Token} {o : Reading Token CompareOp ts.length}
    (h : compareOp? ts = some o) : o.rest <:+ ts := by
  cases ts with
  | nil => cases h
  | cons t rest =>
    have hdrop : rest.drop 1 <:+ t :: rest :=
      (List.drop_suffix 1 rest).trans (List.suffix_cons t rest)
    rw [compareOp?] at h
    split at h
    · cases h
      exact List.suffix_cons t rest
    split at h
    · cases h
      exact List.suffix_cons t rest
    split at h
    · cases h
      exact hdrop
    split at h
    · split at h
      · cases h
        exact hdrop
      · cases h
        exact List.suffix_cons t rest
    · cases h

-- The readers call each other from the loosest level to the tightest one and back, for what stands
-- in brackets. Their lemmas go the same way, and end by the same measure.
mutual

theorem answers_parseOr (ts : List Token) : Answers stop ts size ts.length (parseOr stop ts) := by
  rw [parseOr]
  exact (answers_parseAnd ts).chain fun l => answers_parseOrTail l.value l.rest
termination_by 16 * ts.length + 9
decreasing_by
  · omega
  · have := l.short; omega

theorem answers_parseOrTail (left : Rule Float) (ts : List Token) :
    Answers stop ts size (left.size + ts.length) (parseOrTail stop left ts) := by
  cases ts with
  | nil =>
    rw [parseOrTail]
    exact answers_self
  | cons t rest =>
    rw [parseOrTail]
    split
    · exact (answers_parseAnd rest).round (.logic .or left) (fun _ => by rw [size]) fun r =>
        answers_parseOrTail (.logic .or left r.value) r.rest
    · exact answers_self
termination_by 16 * ts.length
decreasing_by
  · simp only [List.length_cons]; omega
  · have := r.short; simp only [List.length_cons]; omega

theorem answers_parseAnd (ts : List Token) : Answers stop ts size ts.length (parseAnd stop ts) := by
  rw [parseAnd]
  exact (answers_parseNot ts).chain fun l => answers_parseAndTail l.value l.rest
termination_by 16 * ts.length + 8
decreasing_by
  · omega
  · have := l.short; omega

theorem answers_parseAndTail (left : Rule Float) (ts : List Token) :
    Answers stop ts size (left.size + ts.length) (parseAndTail stop left ts) := by
  cases ts with
  | nil =>
    rw [parseAndTail]
    exact answers_self
  | cons t rest =>
    rw [parseAndTail]
    split
    · exact (answers_parseNot rest).round (.logic .and left) (fun _ => by rw [size]) fun r =>
        answers_parseAndTail (.logic .and left r.value) r.rest
    · exact answers_self
termination_by 16 * ts.length
decreasing_by
  · simp only [List.length_cons]; omega
  · have := r.short; simp only [List.length_cons]; omega

theorem answers_parseNot (ts : List Token) : Answers stop ts size ts.length (parseNot stop ts) := by
  cases ts with
  | nil =>
    rw [parseNot]
    exact answers_parseComparison []
  | cons t rest =>
    rw [parseNot]
    split
    · exact (answers_parseNot rest).sign .not fun _ => by rw [size]
    · exact answers_parseComparison (t :: rest)
termination_by 16 * ts.length + 7
decreasing_by all_goals grind

theorem answers_parseComparison (ts : List Token) :
    Answers stop ts size ts.length (parseComparison stop ts) := by
  rw [parseComparison]
  refine (answers_parseArith ts).bind (List.suffix_refl ts) fun first hfirst hsize => ?_
  refine (answers_parseLinks first.rest).bind hfirst fun links hlinks hsize' => ?_
  refine ⟨hlinks.trans hfirst, ?_⟩
  simp only
  split
  · omega
  · rw [size]
    omega
termination_by 16 * ts.length + 6
decreasing_by
  · omega
  · have := first.short; omega

theorem answers_parseLinks (ts : List Token) :
    Answers stop ts linkSizes ts.length (parseLinks stop ts) := by
  rw [parseLinks]
  cases ho : compareOp? ts with
  | none => exact ⟨List.suffix_refl ts, Nat.le_of_eq (by rw [linkSizes, Nat.zero_add])⟩
  | some o =>
    have hop := suffix_of_compareOp? ho
    have hshort := o.short
    refine (answers_parseArith o.rest).bind hop fun r hr hsize => ?_
    have hnext := hr.trans hop
    refine (answers_parseLinks r.rest).bind hnext fun links hlinks hsize' => ?_
    refine ⟨hlinks.trans hnext, ?_⟩
    simp only [linkSizes]
    omega
termination_by 16 * ts.length
decreasing_by
  · have := o.short; omega
  · have := o.short; have := r.short; omega

theorem answers_parseArith (ts : List Token) :
    Answers stop ts size ts.length (parseArith stop ts) := by
  rw [parseArith]
  exact (answers_parseTerm ts).chain fun l => answers_parseArithTail l.value l.rest
termination_by 16 * ts.length + 5
decreasing_by
  · omega
  · have := l.short; omega

theorem answers_parseArithTail (left : Rule Float) (ts : List Token) :
    Answers stop ts size (left.size + ts.length) (parseArithTail stop left ts) := by
  cases ts with
  | nil =>
    rw [parseArithTail]
    exact answers_self
  | cons t rest =>
    rw [parseArithTail]
    split
    · exact answers_self
    · rename_i op _
      exact (answers_parseTerm rest).round (.arith op left) (fun _ => by rw [size]) fun r =>
        answers_parseArithTail (.arith op left r.value) r.rest
termination_by 16 * ts.length
decreasing_by
  · simp only [List.length_cons]; omega
  · have := r.short; simp only [List.length_cons]; omega

theorem answers_parseTerm (ts : List Token) :
    Answers stop ts size ts.length (parseTerm stop ts) := by
  rw [parseTerm]
  exact (answers_parseSigned ts).chain fun l => answers_parseTermTail l.value l.rest
termination_by 16 * ts.length + 4
decreasing_by
  · omega
  · have := l.short; omega

theorem answers_parseTermTail (left : Rule Float) (ts : List Token) :
    Answers stop ts size (left.size + ts.length) (parseTermTail stop left ts) := by
  cases ts with
  | nil =>
    rw [parseTermTail]
    exact answers_self
  | cons t rest =>
    rw [parseTermTail]
    split
    · exact answers_self
    · rename_i op _
      exact (answers_parseSigned rest).round (.arith op left) (fun _ => by rw [size]) fun r =>
        answers_parseTermTail (.arith op left r.value) r.rest
termination_by 16 * ts.length
decreasing_by
  · simp only [List.length_cons]; omega
  · have := r.short; simp only [List.length_cons]; omega

theorem answers_parseSigned (ts : List Token) :
    Answers stop ts size ts.length (parseSigned stop ts) := by
  cases ts with
  | nil =>
    rw [parseSigned]
    exact answers_parseTrailed []
  | cons t rest =>
    rw [parseSigned]
    split
    · exact (answers_parseSigned rest).sign .neg fun _ => by rw [size]
    split
    · refine (answers_parseSigned rest).bind (List.suffix_cons t rest) fun r hr hsize => ?_
      exact ⟨hr.trans (List.suffix_cons t rest), Nat.le_succ_of_le hsize⟩
    · exact answers_parseTrailed (t :: rest)
termination_by 16 * ts.length + 3
decreasing_by all_goals grind

theorem answers_parseTrailed (ts : List Token) :
    Answers stop ts size ts.length (parseTrailed stop ts) := by
  rw [parseTrailed]
  refine (answers_parsePrimary ts).bind (List.suffix_refl ts) fun base hbase hsize => ?_
  refine (answers_parseOps base.rest).bind hbase fun ops hops hsize' => ?_
  refine ⟨hops.trans hbase, ?_⟩
  simp only
  split
  · omega
  · rw [size]
    omega
termination_by 16 * ts.length + 2
decreasing_by
  · omega
  · have := base.short; omega

theorem answers_parseOps (ts : List Token) :
    Answers stop ts opSizes ts.length (parseOps stop ts) := by
  cases ts with
  | nil =>
    rw [parseOps]
    exact ⟨List.suffix_refl [], Nat.le_refl _⟩
  | cons t rest =>
    have hrest := List.suffix_cons t rest
    rw [parseOps]
    split
    · refine Token.answers_expectName.bind_eq hrest fun name hread hname hsize => ?_
      have hafter := hname.trans hrest
      split
      · split
        · have hargs := (List.drop_suffix 1 name.rest).trans hafter
          refine (answers_parseMany ")" (name.rest.drop 1)).bind hargs fun args hargs' hsize' => ?_
          have hmore := hargs'.trans hargs
          refine (answers_parseOps args.rest).bind hmore fun ops hops hsize'' => ?_
          refine ⟨hops.trans hmore, ?_⟩
          simp only [opSizes, List.length_cons, List.length_drop] at hsize' ⊢
          omega
        · have hmem := List.mem_cons_of_mem t (Token.mem_of_expectName hread)
          exact answers_refused (List.mem_cons_of_mem stop hmem)
      · refine (answers_parseOps name.rest).bind hafter fun ops hops hsize' => ?_
        refine ⟨hops.trans hafter, ?_⟩
        simp only [opSizes, List.length_cons]
        omega
    split
    · split
      · have hmore := (List.drop_suffix 1 rest).trans hrest
        refine (answers_parseOps (rest.drop 1)).bind hmore fun ops hops hsize => ?_
        refine ⟨hops.trans hmore, ?_⟩
        simp only [opSizes, List.length_cons, List.length_drop] at hsize ⊢
        omega
      · refine (answers_parseOr rest).bind hrest fun key hkey hsize => ?_
        have hclose := hkey.trans hrest
        refine (Token.answers_expectOp "]").bind hclose fun c hc hsize' => ?_
        have hmore := hc.trans hclose
        refine (answers_parseOps c.rest).bind hmore fun ops hops hsize'' => ?_
        refine ⟨hops.trans hmore, ?_⟩
        simp only [opSizes, List.length_cons]
        omega
    · exact ⟨List.suffix_refl _, Nat.le_of_eq (by rw [opSizes, Nat.zero_add])⟩
termination_by 16 * ts.length + 1
decreasing_by all_goals simp only [List.length_cons, List.length_drop] at *; omega

theorem answers_parseMany (close : String) (ts : List Token) :
    Answers stop ts itemSizes ts.length (parseMany stop close ts) := by
  rw [parseMany]
  split
  · exact ⟨List.drop_suffix 1 ts, by simp only [itemSizes, List.length_drop]; omega⟩
  · refine (answers_parseOr ts).bind (List.suffix_refl ts) fun e he hsize => ?_
    split
    · have hmore := (List.drop_suffix 1 e.rest).trans he
      refine (answers_parseMany close (e.rest.drop 1)).bind hmore fun es hes hsize' => ?_
      refine ⟨hes.trans hmore, ?_⟩
      simp only [itemSizes, List.length_drop] at hsize' ⊢
      omega
    · refine (Token.answers_expectOp close).bind he fun c hc hsize' => ?_
      refine ⟨hc.trans he, ?_⟩
      simp only [itemSizes]
      omega
termination_by 16 * ts.length + 10
decreasing_by
  · omega
  · have := e.short; simp only [List.length_drop]; omega

theorem answers_parseEntries (ts : List Token) :
    Answers stop ts entrySizes ts.length (parseEntries stop ts) := by
  rw [parseEntries]
  split
  · exact ⟨List.drop_suffix 1 ts, by simp only [entrySizes, List.length_drop]; omega⟩
  · refine (answers_parseOr ts).bind (List.suffix_refl ts) fun k hk hsize => ?_
    refine (Token.answers_expectOp ":").bind hk fun c hc hsize' => ?_
    have hvalue := hc.trans hk
    refine (answers_parseOr c.rest).bind hvalue fun v hv hsize'' => ?_
    have hafter := hv.trans hvalue
    split
    · have hmore := (List.drop_suffix 1 v.rest).trans hafter
      refine (answers_parseEntries (v.rest.drop 1)).bind hmore fun es hes hsize''' => ?_
      refine ⟨hes.trans hmore, ?_⟩
      simp only [entrySizes, List.length_drop] at hsize''' ⊢
      omega
    · refine (Token.answers_expectOp "\x7d").bind hafter fun d hd hsize''' => ?_
      refine ⟨hd.trans hafter, ?_⟩
      simp only [entrySizes]
      omega
termination_by 16 * ts.length + 10
decreasing_by
  · omega
  · have := k.short; have := c.short; omega
  · have := k.short; have := c.short; have := v.short; simp only [List.length_drop]; omega

theorem answers_parsePrimary (ts : List Token) :
    Answers stop ts size ts.length (parsePrimary stop ts) := by
  cases ts with
  | nil =>
    rw [parsePrimary]
    exact answers_refused List.mem_cons_self
  | cons t rest =>
    have hrest := List.suffix_cons t rest
    have hmem : t ∈ stop :: t :: rest := List.mem_cons_of_mem stop List.mem_cons_self
    rw [parsePrimary]
    split
    · exact answers_token (by rw [size])
    · exact answers_token (by rw [size])
    · split
      · exact answers_token (by rw [size])
      split
      · exact answers_token (by rw [size])
      split
      · split
        · have hargs := (List.drop_suffix 1 rest).trans hrest
          refine (answers_parseMany ")" (rest.drop 1)).bind hargs fun args hargs' hsize => ?_
          refine ⟨hargs'.trans hargs, ?_⟩
          simp only [Reading.value_widen, Reading.rest_widen, Reading.value_map, Reading.rest_map,
            size, List.length_cons, List.length_drop] at hsize ⊢
          omega
        · exact answers_refused hmem
      · exact answers_refused hmem
    · split
      · refine (answers_parseOr rest).bind hrest fun e he hsize => ?_
        refine (Token.answers_expectOp ")").bind (he.trans hrest) fun c hc hsize' => ?_
        refine ⟨hc.trans (he.trans hrest), ?_⟩
        simp only [Reading.value_widen, Reading.rest_widen, Reading.value_map, Reading.rest_map,
          List.length_cons]
        omega
      split
      · refine (answers_parseMany "]" rest).bind hrest fun es hes hsize => ?_
        refine ⟨hes.trans hrest, ?_⟩
        simp only [Reading.value_widen, Reading.rest_widen, Reading.value_map, Reading.rest_map,
          size, List.length_cons]
        omega
      split
      · refine (answers_parseEntries rest).bind hrest fun es hes hsize => ?_
        refine ⟨hes.trans hrest, ?_⟩
        simp only [Reading.value_widen, Reading.rest_widen, Reading.value_map, Reading.rest_map,
          size, List.length_cons]
        omega
      · exact answers_refused hmem
    · exact answers_refused hmem
termination_by 16 * ts.length
decreasing_by all_goals simp only [List.length_cons, List.length_drop]; omega

end

theorem answers_reader (level : Nat) (ts : List Token) :
    Answers stop ts size ts.length (reader stop level ts) :=
  match level with
  | 0 => answers_parseOr stop ts
  | 1 => answers_parseAnd stop ts
  | 2 => answers_parseNot stop ts
  | 3 => answers_parseComparison stop ts
  | 4 => answers_parseArith stop ts
  | 5 => answers_parseTerm stop ts
  | 6 => answers_parseSigned stop ts
  | 7 => answers_parseTrailed stop ts
  | _ + 8 => answers_parsePrimary stop ts

theorem answers_tail (level : Nat) (left : Rule Float) (ts : List Token) :
    Answers stop ts size (left.size + ts.length) (tail stop level left ts) := by
  unfold tail
  split
  · exact answers_parseOrTail stop left ts
  · exact answers_parseAndTail stop left ts
  · exact answers_parseArithTail stop left ts
  · exact answers_parseTermTail stop left ts
  · exact answers_self

/-- What the loops of the readers do. A loop adds at most one part for each token that it takes, and
what a round of a loop reads takes a token: an operand of some level, a comparison operator, the
name of a member. -/
structure LoopsPay (ts : List Token) : Prop where
  operators : ∀ level left,
    Answers stop ts size (left.size + ts.length) (tail stop level left ts)
  links : Answers stop ts linkSizes ts.length (parseLinks stop ts)
  steps : Answers stop ts opSizes ts.length (parseOps stop ts)
  items : ∀ close, Answers stop ts itemSizes ts.length (parseMany stop close ts)
  entries : Answers stop ts entrySizes ts.length (parseEntries stop ts)
  operand : ∀ level, Takes ts (reader stop level ts)
  comparison : ∀ o, compareOp? ts = some o → ∃ us, us ≠ [] ∧ ts = us ++ o.rest
  member : Takes ts (Token.expectName stop ts)

theorem loopsPay (ts : List Token) : LoopsPay stop ts where
  operators level left := answers_tail stop level left ts
  links := answers_parseLinks stop ts
  steps := answers_parseOps stop ts
  items close := answers_parseMany stop close ts
  entries := answers_parseEntries stop ts
  operand level := (answers_reader stop level ts).takes
  comparison _ ho := takes_of_suffix (suffix_of_compareOp? ho)
  member := Token.answers_expectName.takes

theorem settles_parse (source : String) : Settles source size (parse source) :=
  settles_of_answers (answers_parseOr (endToken source))

end Rule

/-- Both languages settle every source, however malformed it is, and no loop of their readers goes
round for nothing, whatever tokens it starts at. -/
theorem parse_settles :
    (∀ source, Settles source Formula.size (Formula.parse source)) ∧
    (∀ source, Settles source Rule.size (Rule.parse source)) ∧
    ∀ stop ts, Formula.LoopsPay stop ts ∧ Rule.LoopsPay stop ts :=
  ⟨Formula.settles_parse, Rule.settles_parse, fun stop ts =>
    ⟨Formula.loopsPay stop ts, Rule.loopsPay stop ts⟩⟩

end PageExtract
