/-
How far the readers of formulas go.

A reader answers a value and what is left of its tokens, or an error at one of them or at their end.
A value has at most one part for each token that it is read from, so that every round of a reader,
which adds a part, takes tokens of its own:

* `Answers` — what a reader may answer, given how many parts its value may have;
* `Answers.bind` — readers one after the other;
* `Formula.size` — the parts of a formula;
* `Formula.answers_parseExpr`, … — one lemma for each reader;
* `Formula.LoopsPay` — what its loops read and take;
* `position_of_tokens` — where a source cannot be cut into tokens;
* `Settles`, `settles_of_answers` — what becomes of a source;
* `Takes` — a reader that takes a token whenever it answers.
-/
import PageExtract.Proofs.Expr.Spans
import PageExtract.Expr.Formula

namespace PageExtract

/-- What a reader may answer that starts at the tokens `ts`: a value whose size, together with the
tokens that are left of `ts`, is within a budget, or an error at one of the tokens or at their
end. -/
def Answers {α : Type} {n : Nat} (stop : Token) (ts : List Token) (size : α → Nat) (budget : Nat)
    (x : Except ExprError (Reading Token α n)) : Prop :=
  match x with
  | .ok r => r.rest <:+ ts ∧ size r.value + r.rest.length ≤ budget
  | .error e => ∃ t ∈ stop :: ts, e.position = t.pos

section

variable {α β : Type} {n m : Nat} {stop : Token} {ts us : List Token} {size : α → Nat}
  {size' : β → Nat} {budget budget' : Nat}

/-- What is expected is the next token, or else it is refused. -/
theorem answers_token {t : Token} {v : α} {short : ts.length < n} (hv : size v = 1) :
    Answers stop (t :: ts) size (t :: ts).length (.ok ⟨v, ts, short⟩) := by
  refine ⟨List.suffix_cons t ts, Nat.le_of_eq ?_⟩
  rw [hv, List.length_cons, Nat.add_comm]

theorem answers_refused {fault : ExprFault} {t : Token} (ht : t ∈ stop :: ts) :
    Answers stop ts size budget
      (.error ⟨fault, t.pos⟩ : Except ExprError (Reading Token α n)) :=
  ⟨t, ht, rfl⟩

/-- A reader goes on where another one stopped. -/
theorem Answers.bind_eq {x : Except ExprError (Reading Token α n)}
    {f : Reading Token α n → Except ExprError (Reading Token β m)}
    (hx : Answers stop us size budget x) (hus : us <:+ ts)
    (hf : ∀ r : Reading Token α n, x = .ok r → r.rest <:+ us →
      size r.value + r.rest.length ≤ budget → Answers stop ts size' budget' (f r)) :
    Answers stop ts size' budget' (x >>= f) := by
  cases x with
  | error e =>
    obtain ⟨t, ht, he⟩ := hx
    exact ⟨t, List.cons_subset_cons stop hus.subset ht, he⟩
  | ok r => exact hf r rfl hx.1 hx.2

theorem Answers.bind {x : Except ExprError (Reading Token α n)}
    {f : Reading Token α n → Except ExprError (Reading Token β m)}
    (hx : Answers stop us size budget x) (hus : us <:+ ts)
    (hf : ∀ r : Reading Token α n, r.rest <:+ us → size r.value + r.rest.length ≤ budget →
      Answers stop ts size' budget' (f r)) :
    Answers stop ts size' budget' (x >>= f) :=
  hx.bind_eq hus fun r _ => hf r

/-- An operand that nothing is joined to. -/
theorem answers_self {left : α} {short : ts.length < n} :
    Answers stop ts size (size left + ts.length) (.ok ⟨left, ts, short⟩) :=
  ⟨List.suffix_refl ts, Nat.le_refl _⟩

/-- An operand, and what is joined to it. -/
theorem Answers.chain {x : Except ExprError (Reading Token α ts.length)}
    {f : (l : Reading Token α ts.length) → Except ExprError (Reading Token α (l.rest.length + 1))}
    (hx : Answers stop ts size ts.length x)
    (hf : ∀ l, Answers stop l.rest size (size l.value + l.rest.length) (f l)) :
    Answers stop ts size ts.length (x >>= fun l => f l >>= fun e => pure (e.widen l.short)) := by
  refine hx.bind (List.suffix_refl ts) fun l hl hsize => ?_
  refine (hf l).bind hl fun e he hsize' => ?_
  exact ⟨he.trans hl, Nat.le_trans hsize' hsize⟩

/-- One round: an operator, an operand that it joins to what stands before, and further rounds. The
operator pays for the part that joins the operands. -/
theorem Answers.round {o : Token} {left : α} (join : α → α)
    (hjoin : ∀ v, size (join v) = 1 + size left + size v)
    {x : Except ExprError (Reading Token α ts.length)}
    {f : (r : Reading Token α ts.length) → Except ExprError (Reading Token α (r.rest.length + 1))}
    {hle : ∀ r : Reading Token α ts.length, r.rest.length + 1 ≤ m}
    (hx : Answers stop ts size ts.length x)
    (hf : ∀ r, Answers stop r.rest size (size (join r.value) + r.rest.length) (f r)) :
    Answers stop (o :: ts) size (size left + (o :: ts).length)
      (x >>= fun r => f r >>= fun e => pure (e.widen (hle r))) := by
  refine hx.bind (List.suffix_cons o ts) fun r hr hsize => ?_
  have hnext := hr.trans (List.suffix_cons o ts)
  refine (hf r).bind hnext fun e he hsize' => ?_
  refine ⟨he.trans hnext, Nat.le_trans hsize' ?_⟩
  rw [hjoin, List.length_cons]
  omega

/-- An operator before an operand, which pays for the part that it adds. -/
theorem Answers.sign {o : Token} (f : α → α) (hf : ∀ v, size (f v) = 1 + size v)
    {x : Except ExprError (Reading Token α ts.length)} {hle : ts.length ≤ (o :: ts).length}
    (hx : Answers stop ts size ts.length x) :
    Answers stop (o :: ts) size (o :: ts).length (x >>= fun r => pure ((r.map f).widen hle)) := by
  refine hx.bind (List.suffix_cons o ts) fun r hr hsize => ⟨hr.trans (List.suffix_cons o ts), ?_⟩
  rw [Reading.value_widen, Reading.rest_widen, Reading.value_map, Reading.rest_map, hf,
    List.length_cons]
  omega

/-- Whenever a reader of the tokens `ts` answers, it has taken some of them, and the others are
left. -/
def Takes (ts : List Token) (x : Except ExprError (Reading Token α n)) : Prop :=
  ∀ r, x = .ok r → ∃ us, us ≠ [] ∧ ts = us ++ r.rest

theorem takes_of_suffix {r : Reading Token α ts.length} (hr : r.rest <:+ ts) :
    ∃ us, us ≠ [] ∧ ts = us ++ r.rest := by
  obtain ⟨us, hus⟩ := hr
  refine ⟨us, ?_, hus.symm⟩
  rintro rfl
  exact Nat.ne_of_lt r.short (congrArg List.length hus)

theorem Answers.takes {x : Except ExprError (Reading Token α ts.length)}
    (hx : Answers stop ts size budget x) : Takes ts x := by
  rintro r rfl
  exact takes_of_suffix hx.1

namespace Token

theorem next_mem (stop : Token) (ts : List Token) : next stop ts ∈ stop :: ts := by
  cases ts with
  | nil => exact List.mem_cons_self
  | cons t ts => exact List.mem_cons_of_mem stop List.mem_cons_self

theorem answers_expectOp (o : String) :
    Answers stop ts (fun _ => 1) ts.length (expectOp stop o ts) := by
  cases ts with
  | nil => exact answers_refused List.mem_cons_self
  | cons t ts =>
    rw [expectOp]
    split
    · exact answers_token rfl
    · exact answers_refused (List.mem_cons_of_mem stop List.mem_cons_self)

theorem answers_expectName : Answers stop ts (fun _ => 1) ts.length (expectName stop ts) := by
  cases ts with
  | nil => exact answers_refused List.mem_cons_self
  | cons t ts =>
    rw [expectName]
    split
    · exact answers_token rfl
    · exact answers_refused (List.mem_cons_of_mem stop List.mem_cons_self)

theorem mem_of_expectName {r : Reading Token Token ts.length} (h : expectName stop ts = .ok r) :
    r.value ∈ ts := by
  cases ts with
  | nil => cases h
  | cons t ts =>
    rw [expectName] at h
    split at h
    · cases h
      exact List.mem_cons_self
    · cases h

end Token

end

/-! ### Formulas -/

namespace Formula

/-- The number of operations, numerals and sums in a formula, and of levels summed over. -/
def size : Formula → Nat
  | num _ => 1
  | sum path => 1 + path.length
  | neg operand => 1 + operand.size
  | bin _ left right => 1 + left.size + right.size

variable (stop : Token)

theorem answers_parsePath (ts : List Token) :
    Answers stop ts List.length ts.length (parsePath stop ts) := by
  rw [parsePath]
  refine Token.answers_expectName.bind (List.suffix_refl ts) fun name hname hsize => ?_
  -- The mark, if it is there, takes two more tokens.
  have hmark : (if Token.bracketsNext name.rest then name.rest.drop 2 else name.rest) <:+
      name.rest := by
    split
    · exact List.drop_suffix 2 name.rest
    · exact List.suffix_refl name.rest
  have hlength := hmark.length_le
  simp only
  by_cases hpoint : Token.opNext "."
      (if Token.bracketsNext name.rest then name.rest.drop 2 else name.rest) = true
  · rw [if_pos hpoint]
    have hmore := ((List.drop_suffix 1 _).trans hmark).trans hname
    refine (answers_parsePath _).bind hmore fun more hrest hsize' => ?_
    refine ⟨hrest.trans hmore, ?_⟩
    simp only [List.length_cons, List.length_drop] at hsize' ⊢
    omega
  · rw [if_neg hpoint]
    exact ⟨hmark.trans hname, by simp only [List.length_singleton]; omega⟩
termination_by ts.length
decreasing_by have := name.short; grind

theorem answers_parseSumPath (ts : List Token) :
    Answers stop ts List.length ts.length (parseSumPath stop ts) := by
  refine (answers_parsePath stop ts).bind (List.suffix_refl ts) fun p hp hsize => ?_
  split
  · exact ⟨hp, hsize⟩
  · exact answers_refused (Token.next_mem stop ts)

-- The readers call each other as the rules of the grammar do. Their lemmas go the same way, and end
-- by the same measure.
mutual

theorem answers_parseExpr (ts : List Token) :
    Answers stop ts size ts.length (parseExpr stop ts) := by
  rw [parseExpr]
  exact (answers_parseTerm ts).chain fun t => answers_parseExprTail t.value t.rest
termination_by 8 * ts.length + 4
decreasing_by
  · omega
  · have := t.short; omega

theorem answers_parseExprTail (left : Formula) (ts : List Token) :
    Answers stop ts size (left.size + ts.length) (parseExprTail stop left ts) := by
  cases ts with
  | nil =>
    rw [parseExprTail]
    exact answers_self
  | cons o rest =>
    rw [parseExprTail]
    split
    · exact answers_self
    · rename_i op _
      exact (answers_parseTerm rest).round (.bin op left) (fun _ => rfl) fun t =>
        answers_parseExprTail (.bin op left t.value) t.rest
termination_by 8 * ts.length
decreasing_by
  · grind
  · have := t.short; grind

theorem answers_parseTerm (ts : List Token) :
    Answers stop ts size ts.length (parseTerm stop ts) := by
  rw [parseTerm]
  exact (answers_parseFactor ts).chain fun f => answers_parseTermTail f.value f.rest
termination_by 8 * ts.length + 3
decreasing_by
  · omega
  · have := f.short; omega

theorem answers_parseTermTail (left : Formula) (ts : List Token) :
    Answers stop ts size (left.size + ts.length) (parseTermTail stop left ts) := by
  cases ts with
  | nil =>
    rw [parseTermTail]
    exact answers_self
  | cons o rest =>
    rw [parseTermTail]
    split
    · exact answers_self
    · rename_i op _
      exact (answers_parseFactor rest).round (.bin op left) (fun _ => rfl) fun f =>
        answers_parseTermTail (.bin op left f.value) f.rest
termination_by 8 * ts.length
decreasing_by
  · grind
  · have := f.short; grind

theorem answers_parseFactor (ts : List Token) :
    Answers stop ts size ts.length (parseFactor stop ts) := by
  cases ts with
  | nil =>
    rw [parseFactor]
    exact answers_refused List.mem_cons_self
  | cons t rest =>
    have hrest := List.suffix_cons t rest
    rw [parseFactor]
    split
    · exact (answers_parseFactor rest).sign .neg fun _ => rfl
    split
    · refine (answers_parseExpr rest).bind hrest fun e he hsize => ?_
      have hclose := he.trans hrest
      refine (Token.answers_expectOp ")").bind hclose fun c hc hsize' => ?_
      refine ⟨hc.trans hclose, ?_⟩
      simp only [List.length_cons]
      omega
    split
    · exact answers_token rfl
    split
    · refine (Token.answers_expectOp "(").bind hrest fun o ho hsize => ?_
      have hpath := ho.trans hrest
      refine (answers_parseSumPath stop o.rest).bind hpath fun p hp hsize' => ?_
      have hclose := hp.trans hpath
      refine (Token.answers_expectOp ")").bind hclose fun c hc hsize'' => ?_
      refine ⟨hc.trans hclose, ?_⟩
      simp only [size, List.length_cons]
      omega
    · exact answers_refused (List.mem_cons_of_mem stop List.mem_cons_self)
termination_by 8 * ts.length + 2
decreasing_by all_goals grind

end

/-- What the loops of the readers do. A loop adds at most one part for each token that it takes, and
an operand or a level, which each round of a loop reads, takes a token. -/
structure LoopsPay (ts : List Token) : Prop where
  levels : Answers stop ts List.length ts.length (parsePath stop ts)
  terms : ∀ left, Answers stop ts size (left.size + ts.length) (parseExprTail stop left ts)
  factors : ∀ left, Answers stop ts size (left.size + ts.length) (parseTermTail stop left ts)
  level : Takes ts (Token.expectName stop ts)
  term : Takes ts (parseTerm stop ts)
  factor : Takes ts (parseFactor stop ts)

theorem loopsPay (ts : List Token) : LoopsPay stop ts where
  levels := answers_parsePath stop ts
  terms left := answers_parseExprTail stop left ts
  factors left := answers_parseTermTail stop left ts
  level := Token.answers_expectName.takes
  term := (answers_parseTerm stop ts).takes
  factor := (answers_parseFactor stop ts).takes

end Formula

/-! ### Sources -/

section

open Text

/-- A computation fails where its first part does, if nothing after that can fail. -/
theorem error_of_bind_pure {ε α β : Type} {x : Except ε α} {f : α → β} {e : ε}
    (h : x >>= (fun a => pure (f a)) = .error e) : x = .error e := by
  cases x with
  | error e' =>
    cases h
    rfl
  | ok a => cases h

/-- What cannot be cut into tokens is refused at a place that has been reached. -/
theorem Token.position_of_scan {total : Nat} {last : TokenKind} {cs : List Char} {e : ExprError}
    (h : Token.scan total last cs = .error e) : e.position ≤ total := by
  fun_induction Token.scan total last cs with
  | case1 => cases h
  | case2 last c cs hblank ih => exact ih h
  | case3 last c cs _ _ s rest hread pos ih => exact ih (error_of_bind_pure h)
  | case5 last c cs _ _ lexeme rest hread pos ih => exact ih (error_of_bind_pure h)
  | case6 last c cs _ _ _ hstart pos ih => exact ih (error_of_bind_pure h)
  | case7 last c cs _ _ _ _ o ho pos ih => exact ih (error_of_bind_pure h)
  | case4 | case8 =>
    cases h
    exact Nat.sub_le _ _

theorem position_of_tokens {source : String} {e : ExprError} (h : tokens source = .error e) :
    e.position ≤ length16 source :=
  Token.position_of_scan h

/-- Every token stands in its source. -/
theorem pos_le_of_tokens {source : String} {ts : List Token} (h : tokens source = .ok ts) :
    ∀ t ∈ ts, t.pos ≤ length16 source := by
  obtain ⟨us, rfl, hcovers⟩ := Span.exists_covers_of_tokens h
  obtain ⟨gap, -, hchars, hread⟩ := hcovers.split
  intro t ht
  obtain ⟨u, hu, rfl⟩ := List.mem_map.1 ht
  obtain ⟨before, after, hus⟩ := List.append_of_mem hu
  rw [(hread before u after hus).1, length16, hchars, hus]
  simp only [List.flatMap_append, List.flatMap_cons, Span.chars, width16_append]
  omega

/-- A source is read, to a value with at most one part for each of its tokens, or it is refused at
a position in it. -/
def Settles {α : Type} (source : String) (size : α → Nat) (x : Except ExprError α) : Prop :=
  (∃ v ts, x = .ok v ∧ tokens source = .ok ts ∧ size v ≤ ts.length) ∨
    ∃ e, x = .error e ∧ e.position ≤ length16 source

/-- A reader settles a source once what it leaves is refused. -/
theorem settles_of_answers {α : Type} {source : String} {size : α → Nat}
    {read : (ts : List Token) → Except ExprError (Reading Token α ts.length)}
    (hread : ∀ ts, Answers (endToken source) ts size ts.length (read ts)) :
    Settles source size (tokens source >>= fun ts => read ts >>= fun r =>
      match r.rest with
      | [] => pure r.value
      | t :: _ => throw ⟨.unexpected t, t.pos⟩) := by
  cases hts : tokens source with
  | error e => exact .inr ⟨e, rfl, position_of_tokens hts⟩
  | ok ts =>
    have hpos : ∀ t ∈ endToken source :: ts, t.pos ≤ length16 source :=
      List.forall_mem_cons.2 ⟨Nat.le_refl _, pos_le_of_tokens hts⟩
    have hanswer := hread ts
    cases hr : read ts with
    | error e =>
      rw [hr] at hanswer
      obtain ⟨t, ht, he⟩ := hanswer
      exact .inr ⟨e, by simp only [bind, Except.bind, hr], he ▸ hpos t ht⟩
    | ok r =>
      rw [hr] at hanswer
      obtain ⟨hsuffix, hsize⟩ := hanswer
      obtain ⟨v, rest, short⟩ := r
      cases rest with
      | nil => exact .inl ⟨v, ts, by simp only [bind, Except.bind, hr]; rfl, hts, hsize⟩
      | cons t rest =>
        have ht := hpos t (List.mem_cons_of_mem _ (hsuffix.subset List.mem_cons_self))
        exact .inr ⟨⟨.unexpected t, t.pos⟩, by simp only [bind, Except.bind, hr]; rfl, ht⟩

theorem Formula.settles_parse (source : String) :
    Settles source Formula.size (Formula.parse source) :=
  settles_of_answers (answers_parseExpr (endToken source))

end

end PageExtract
