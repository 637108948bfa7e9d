/-
The levels of the grammar of rules.

Each level has a reader, and those of operators that associate to the left have one more that goes
on with an operand. What is read on one level is read on every looser one, if what follows binds no
more tightly than the level:

* `Token.binding`, `Rule.Ends` — from which level on a token ends what stands before it;
* `Rule.reader`, `Rule.tail` — the readers, level by level;
* `Rule.fails_parseTrailed`, `Rule.fails_parseOr`, … — tokens that nothing begins with;
* `Rule.Reads`, `Rule.Begins` — what is read from tokens, wherever they stand;
* `Rule.Holds.mono` — what is read on a level is read on the looser ones.
-/
import PageExtract.Proofs.Expr.Grammar
import PageExtract.Proofs.Rule.Paths

namespace PageExtract

/-! ### Tokens that end an operand -/

/-- The tightest level of an operand that a token after it goes on with, plus one: a step of a path
goes on with a path and not with anything looser. -/
def Token.binding : TokenKind × String → Nat
  | (.ident, s) =>
    if s = "or" then 1 else if s = "and" then 2 else if s ∈ ["in", "not", "is"] then 4 else 0
  | (.op, s) =>
    if s ∈ ["==", "!=", "<", "<=", ">", ">="] then 4
    else if s ∈ ["+", "-"] then 5
    else if s ∈ ["*", "/", "%"] then 6
    else if s ∈ [".", "[", "("] then 8
    else 0
  | _ => 0

theorem Token.binding_le (s : TokenKind × String) : Token.binding s ≤ 8 := by
  unfold Token.binding
  split
  · grind
  · grind
  · exact Nat.zero_le 8

theorem Token.sign_of_isWord {t : Token} {w : String} (h : t.isWord w = true) :
    t.sign = (.ident, w) := by
  simp only [Token.isWord, Bool.and_eq_true, decide_eq_true_eq, beq_iff_eq] at h
  exact Prod.ext h.1 h.2

namespace Rule

/-- Whether tokens end an operand of a level. -/
def Ends (n : Nat) (ts : List Token) : Prop := ∀ t ∈ ts.head?, Token.binding t.sign ≤ n

section

variable {n m : Nat} {t : Token} {ts : List Token}

theorem Ends.mono (h : Ends n ts) (hnm : n ≤ m) : Ends m ts := fun t ht => Nat.le_trans (h t ht) hnm

theorem ends_nil : Ends n [] := nofun

theorem ends_cons (h : Token.binding t.sign ≤ n) : Ends n (t :: ts) := by
  rintro _ ⟨⟩
  exact h

theorem Ends.isOp (h : Ends n (t :: ts)) {o : String} (ho : n < Token.binding (.op, o)) :
    t.isOp o = false := by
  rw [Bool.eq_false_iff]
  intro hop
  have hle := h t rfl
  rw [Token.sign_of_isOp hop] at hle
  omega

theorem Ends.isWord (h : Ends n (t :: ts)) {w : String} (hw : n < Token.binding (.ident, w)) :
    t.isWord w = false := by
  rw [Bool.eq_false_iff]
  intro hword
  have hle := h t rfl
  rw [Token.sign_of_isWord hword] at hle
  omega

theorem Ends.opNext (h : Ends n ts) {o : String} (ho : n < Token.binding (.op, o)) :
    Token.opNext o ts = false := by
  cases ts with
  | nil => rfl
  | cons t ts => exact h.isOp ho

theorem Ends.productOp? (h : Ends n (t :: ts)) (hn : n < 6) : productOp? t = none := by
  unfold Rule.productOp?
  simp [h.isOp (o := "*") hn, h.isOp (o := "/") hn, h.isOp (o := "%") hn]

theorem Ends.sumOp? (h : Ends n (t :: ts)) (hn : n < 5) : sumOp? t = none := by
  unfold Rule.sumOp?
  simp [h.isOp (o := "+") hn, h.isOp (o := "-") hn]

theorem Ends.compareOp? (h : Ends n ts) (hn : n < 4) : compareOp? ts = none := by
  cases ts with
  | nil => rfl
  | cons t ts =>
    have hsign : signCompare? t = none := by
      unfold signCompare?
      split
      · rename_i hkind
        refine List.find?_eq_none.2 fun o ho htext => ?_
        have hop : t.isOp o.text = true := by
          rw [Token.isOp, hkind, ← beq_iff_eq.1 htext]
          simp
        rw [h.isOp] at hop
        · cases hop
        · simp only [List.mem_cons, List.not_mem_nil, or_false] at ho
          rcases ho with rfl | rfl | rfl | rfl | rfl | rfl <;> exact hn
      · rfl
    rw [Rule.compareOp?, hsign]
    simp [h.isWord (w := "in") hn, h.isWord (w := "not") hn, h.isWord (w := "is") hn]

end

/-! ### Readers -/

variable (stop : Token)

/-- The reader of a level. -/
def reader : Nat → (ts : List Token) → Parsed ts.length
  | 0, ts => parseOr stop ts
  | 1, ts => parseAnd stop ts
  | 2, ts => parseNot stop ts
  | 3, ts => parseComparison stop ts
  | 4, ts => parseArith stop ts
  | 5, ts => parseTerm stop ts
  | 6, ts => parseSigned stop ts
  | 7, ts => parseTrailed stop ts
  | _, ts => parsePrimary stop ts

/-- The levels of operators that associate to the left. -/
def AssociatesLeft (n : Nat) : Prop := n ∈ [0, 1, 4, 5]

/-- The reader of more operands of a level, after `left`. -/
def tail (n : Nat) (left : Rule Float) (ts : List Token) : Parsed (ts.length + 1) :=
  match n with
  | 0 => parseOrTail stop left ts
  | 1 => parseAndTail stop left ts
  | 4 => parseArithTail stop left ts
  | 5 => parseTermTail stop left ts
  | _ => .ok ⟨left, ts, Nat.lt_succ_self _⟩

/-! ### Tokens that nothing begins with -/

section

variable {stop} {t : Token} {ts : List Token}

/-- A reader that refuses what it is given. -/
def Fails {α : Type} (x : Except ExprError α) : Prop := ∃ e, x = .error e

theorem Fails.bind {α β : Type} {x : Except ExprError α} (h : Fails x)
    (f : α → Except ExprError β) : Fails (x >>= f) := by
  obtain ⟨e, rfl⟩ := h
  exact ⟨e, rfl⟩

theorem Fails.not_is {n : Nat} {x : Parsed n} (h : Fails x) (r : Rule Float) (rest : List Token) :
    ¬ Reading.Is x r rest := by
  rintro ⟨_, hx⟩
  obtain ⟨e, rfl⟩ := h
  cases hx

/-- The marks that close something. -/
def closers : List (TokenKind × String) := [(.op, ")"), (.op, "]"), (.op, "\x7d")]

theorem fails_parsePrimary
    (ht : t.sign ∈ (.op, "-") :: (.op, "+") :: (.ident, "not") :: closers) :
    Fails (parsePrimary stop (t :: ts)) := by
  obtain ⟨kind, text, pos⟩ := t
  simp only [closers, Token.sign, List.mem_cons, List.not_mem_nil, or_false,
    Prod.mk.injEq] at ht
  rw [parsePrimary]
  rcases ht with ⟨rfl, rfl⟩ | ⟨rfl, rfl⟩ | ⟨rfl, rfl⟩ | ⟨rfl, rfl⟩ | ⟨rfl, rfl⟩ | ⟨rfl, rfl⟩
  case inr.inr.inl =>
    have hvalue : wordValue? "not" = none := rfl
    have hdata : ("not" == "data") = false := rfl
    have hcall : Helper.ofName? "not" = none := rfl
    simp only [hvalue, hdata, hcall, Bool.false_eq_true, if_false]
    split <;> exact ⟨_, rfl⟩
  all_goals exact ⟨_, rfl⟩

theorem fails_parseTrailed
    (ht : t.sign ∈ (.op, "-") :: (.op, "+") :: (.ident, "not") :: closers) :
    Fails (parseTrailed stop (t :: ts)) := by
  rw [parseTrailed]
  exact (fails_parsePrimary ht).bind _

theorem fails_parseArith (ht : t.sign ∈ (.ident, "not") :: closers) :
    Fails (parseArith stop (t :: ts)) := by
  have hsign : ∀ o ∈ ["-", "+"], t.isOp o = false := by
    intro o ho
    rw [Bool.eq_false_iff]
    intro hop
    rw [Token.sign_of_isOp hop] at ht
    simp only [List.mem_cons, List.not_mem_nil, or_false] at ho
    rcases ho with rfl | rfl <;> exact absurd ht (by decide)
  have hsigned : Fails (parseSigned stop (t :: ts)) := by
    rw [parseSigned, hsign "-" (by decide), hsign "+" (by decide), if_neg Bool.false_ne_true,
      if_neg Bool.false_ne_true]
    exact fails_parseTrailed (List.mem_cons_of_mem _ (List.mem_cons_of_mem _ ht))
  rw [parseArith, parseTerm]
  exact (hsigned.bind _).bind _

theorem fails_parseOr (ht : t.sign ∈ closers) : Fails (parseOr stop (t :: ts)) := by
  have hword : t.isWord "not" = false := by
    rw [Bool.eq_false_iff]
    intro hnot
    rw [Token.sign_of_isWord hnot] at ht
    exact absurd ht (by decide)
  have hnot : Fails (parseNot stop (t :: ts)) := by
    rw [parseNot, hword, if_neg Bool.false_ne_true, parseComparison]
    exact (fails_parseArith (List.mem_cons_of_mem _ ht)).bind _
  rw [parseOr, parseAnd]
  exact (hnot.bind _).bind _

end

/-! ### What is read on a level -/

/-- A rule is read from tokens on a level, whatever follows that ends it. -/
def Reads (n : Nat) (signs : List (TokenKind × String)) (r : Rule Float) : Prop :=
  ∀ us rest, us.map Token.sign = signs → Ends n rest →
    Reading.Is (reader stop n (us ++ rest)) r rest

-- The readers collect operators from left to right, so that the left operand of an operator is not
-- read to its end: it is the beginning of a tree that grows with every operator after it.
/-- A rule is read from tokens as the beginning of what the operators after it make of it. -/
def Begins (n : Nat) (signs : List (TokenKind × String)) (r : Rule Float) : Prop :=
  ∀ us rest g last, us.map Token.sign = signs → Ends (n + 1) rest →
    Reading.Is (tail stop n r rest) g last → Reading.Is (reader stop n (us ++ rest)) g last

/-- What is read on a level, also as the beginning of more. -/
structure Holds (n : Nat) (signs : List (TokenKind × String)) (r : Rule Float) : Prop where
  reads : Reads stop n signs r
  begins : AssociatesLeft n → Begins stop n signs r

section

variable {stop} {n : Nat} {signs : List (TokenKind × String)} {r g : Rule Float}
  {ts mid last rest : List Token}

theorem is_tail_nil (hn : AssociatesLeft n) (hrest : Ends n rest) :
    Reading.Is (tail stop n r rest) r rest := by
  simp only [AssociatesLeft, List.mem_cons, List.not_mem_nil, or_false] at hn
  cases rest with
  | nil =>
    rcases hn with rfl | rfl | rfl | rfl
    · rw [tail, parseOrTail]; exact Reading.is_self _
    · rw [tail, parseAndTail]; exact Reading.is_self _
    · rw [tail, parseArithTail]; exact Reading.is_self _
    · rw [tail, parseTermTail]; exact Reading.is_self _
  | cons t rest =>
    rcases hn with rfl | rfl | rfl | rfl
    · rw [tail, parseOrTail, hrest.isWord (by decide)]; exact Reading.is_self _
    · rw [tail, parseAndTail, hrest.isWord (by decide)]; exact Reading.is_self _
    · rw [tail, parseArithTail, hrest.sumOp? (by decide)]; exact Reading.is_self _
    · rw [tail, parseTermTail, hrest.productOp? (by decide)]; exact Reading.is_self _

theorem is_chain {k : Nat} {x : Parsed k}
    {f : (l : Reading Token (Rule Float) k) → Parsed (l.rest.length + 1)}
    (hx : Reading.Is x r mid) (hf : ∀ short, Reading.Is (f ⟨r, mid, short⟩) g last) :
    Reading.Is (x >>= fun l => f l >>= fun e => pure (e.widen l.short)) g last := by
  obtain ⟨short, rfl⟩ := hx
  obtain ⟨_, hf⟩ := hf short
  simp only [bind, Except.bind, hf]
  exact ⟨_, rfl⟩

/-- An operand of the next level and the operators after it. -/
theorem is_reader (hn : AssociatesLeft n) (hr : Reading.Is (reader stop (n + 1) ts) r mid)
    (htail : Reading.Is (tail stop n r mid) g last) : Reading.Is (reader stop n ts) g last := by
  simp only [AssociatesLeft, List.mem_cons, List.not_mem_nil, or_false] at hn
  rcases hn with rfl | rfl | rfl | rfl
  · rw [reader, parseOr]; exact is_chain hr fun _ => htail
  · rw [reader, parseAnd]; exact is_chain hr fun _ => htail
  · rw [reader, parseArith]; exact is_chain hr fun _ => htail
  · rw [reader, parseTerm]; exact is_chain hr fun _ => htail

theorem Begins.reads (hn : AssociatesLeft n) (h : Begins stop n signs r) : Reads stop n signs r :=
  fun us rest hus hrest => h us rest r rest hus (hrest.mono n.le_succ) (is_tail_nil hn hrest)

theorem Reads.begins (hn : AssociatesLeft n) (h : Reads stop (n + 1) signs r) :
    Begins stop n signs r :=
  fun us rest _ _ hus hrest htail => is_reader hn (h us rest hus hrest) htail

theorem Begins.holds (hn : AssociatesLeft n) (h : Begins stop n signs r) : Holds stop n signs r :=
  ⟨h.reads hn, fun _ => h⟩

theorem parseOps_ends (hrest : Ends 7 rest) :
    parseOps stop rest = .ok ⟨[], rest, Nat.lt_succ_self _⟩ := by
  cases rest with
  | nil => rw [parseOps]
  | cons t rest =>
    rw [parseOps, hrest.isOp (by decide), hrest.isOp (by decide), if_neg Bool.false_ne_true,
      if_neg Bool.false_ne_true]

theorem parseLinks_ends (hrest : Ends 3 rest) :
    parseLinks stop rest = .ok ⟨[], rest, Nat.lt_succ_self _⟩ := by
  rw [parseLinks, hrest.compareOp? (by decide)]

/-- A primary operand that no step of a path follows. -/
theorem Reads.trailed (h : Reads stop 8 signs r) : Reads stop 7 signs r := by
  intro us rest hus hrest
  obtain ⟨short, hbase⟩ : Reading.Is (parsePrimary stop (us ++ rest)) r rest :=
    h us rest hus (hrest.mono (by decide))
  show Reading.Is (parseTrailed stop (us ++ rest)) r rest
  rw [parseTrailed, hbase]
  simp only [bind, Except.bind, parseOps_ends hrest]
  exact ⟨_, rfl⟩

/-- An operand without signs. -/
theorem Reads.signed (h : Reads stop 7 signs r) : Reads stop 6 signs r := by
  intro us rest hus hrest
  have htrailed : Reading.Is (parseTrailed stop (us ++ rest)) r rest :=
    h us rest hus (hrest.mono (by decide))
  show Reading.Is (parseSigned stop (us ++ rest)) r rest
  cases hts : us ++ rest with
  | nil =>
    rw [hts] at htrailed
    rw [parseSigned]
    exact htrailed
  | cons t ts =>
    rw [hts] at htrailed
    -- A sign would be the first token, but no path begins with one.
    have hsign : ∀ o ∈ ["-", "+"], t.isOp o = false := by
      intro o ho
      rw [Bool.eq_false_iff]
      intro hop
      refine (fails_parseTrailed ?_).not_is r rest htrailed
      rw [Token.sign_of_isOp hop]
      simp only [List.mem_cons, List.not_mem_nil, or_false] at ho
      rcases ho with rfl | rfl <;> decide
    rw [parseSigned, hsign "-" (by decide), hsign "+" (by decide), if_neg Bool.false_ne_true,
      if_neg Bool.false_ne_true]
    exact htrailed

/-- An operand that no comparison follows. -/
theorem Reads.comparison (h : Reads stop 4 signs r) : Reads stop 3 signs r := by
  intro us rest hus hrest
  obtain ⟨short, hfirst⟩ : Reading.Is (parseArith stop (us ++ rest)) r rest :=
    h us rest hus (hrest.mono (by decide))
  show Reading.Is (parseComparison stop (us ++ rest)) r rest
  rw [parseComparison, hfirst]
  simp only [bind, Except.bind, parseLinks_ends hrest]
  exact ⟨_, rfl⟩

/-- A comparison that does not begin with `not`. -/
theorem Reads.negation (h : Reads stop 3 signs r) : Reads stop 2 signs r := by
  intro us rest hus hrest
  have hcompare : Reading.Is (parseComparison stop (us ++ rest)) r rest :=
    h us rest hus (hrest.mono (by decide))
  show Reading.Is (parseNot stop (us ++ rest)) r rest
  cases hts : us ++ rest with
  | nil =>
    rw [hts] at hcompare
    rw [parseNot]
    exact hcompare
  | cons t ts =>
    rw [hts] at hcompare
    -- The word `not` would be the first token, but no comparison begins with it.
    have hword : t.isWord "not" = false := by
      rw [Bool.eq_false_iff]
      intro hnot
      have hfails : Fails (parseComparison stop (t :: ts)) := by
        rw [parseComparison]
        exact (fails_parseArith (by rw [Token.sign_of_isWord hnot]; decide)).bind _
      exact hfails.not_is r rest hcompare
    rw [parseNot, hword, if_neg Bool.false_ne_true]
    exact hcompare

/-- What is read on a level is read on the next looser one. -/
theorem Holds.lower (h : Holds stop (n + 1) signs r) : Holds stop n signs r := by
  by_cases hn : AssociatesLeft n
  · exact (h.reads.begins hn).holds hn
  · refine ⟨?_, fun h => absurd h hn⟩
    match n with
    | 0 | 1 | 4 | 5 => simp [AssociatesLeft] at hn
    | 2 => exact h.reads.negation
    | 3 => exact h.reads.comparison
    | 6 => exact h.reads.signed
    | 7 => exact h.reads.trailed
    | n + 8 => exact fun us rest hus _ => h.reads us rest hus fun t _ =>
        Nat.le_trans (Token.binding_le t.sign) (by omega)

/-- What is read on a level is read on every looser one. -/
theorem Holds.mono {m : Nat} (h : Holds stop m signs r) (hnm : n ≤ m) : Holds stop n signs r := by
  induction hnm with
  | refl => exact h
  | step _ ih => exact ih h.lower

end

end Rule

end PageExtract
