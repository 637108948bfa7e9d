/-
Names in formulas.

What the reader of tokens calls a name is a name for paths too. Hence every path that a formula
sums over is one that a text spells, and looking its values up never meets a name that is none.

* `namesIn_of_tokens` — the names among the tokens of a source are names;
* `Formula.paths`, `Formula.Named` — the paths that a formula sums over, all of them of names;
* `Formula.named_of_parse` — so it is with a formula that a text spells.
-/
import PageExtract.Expr.Formula
import PageExtract.Proofs.Expr.Spans
import PageExtract.Proofs.Record.Spelling

namespace PageExtract

/-- Tokens whose names are names. -/
def NamesIn (ts : List Token) : Prop := ∀ t ∈ ts, t.kind = .ident → isName t.text = true

theorem NamesIn.subset {ts us : List Token} (h : NamesIn ts) (hsub : us ⊆ ts) : NamesIn us :=
  fun t ht => h t (hsub ht)

theorem NamesIn.tail {t : Token} {ts : List Token} (h : NamesIn (t :: ts)) : NamesIn ts :=
  h.subset (List.subset_cons_self t ts)

/-- The names among the tokens of a source are names. -/
theorem namesIn_of_tokens {source : String} {ts : List Token} (h : tokens source = .ok ts) :
    NamesIn ts := by
  obtain ⟨us, rfl, hcovers⟩ := Span.exists_covers_of_tokens h
  intro t ht hkind
  obtain ⟨u, hu, rfl⟩ := List.mem_map.1 ht
  obtain ⟨rest, hread⟩ := hcovers.readFrom u hu
  exact hread.isName hkind

/-- A path of names, at least one. -/
def Path.Named (p : Path) : Prop := p ≠ [] ∧ ∀ s ∈ p, isName s.name = true

theorem Path.Named.parse_text {p : Path} (h : p.Named) : Path.parse p.text = .ok p :=
  Path.parse_text h.1 h.2

namespace Token

theorem expectName_spec {stop : Token} {ts : List Token} {r : Reading Token Token ts.length}
    (hts : NamesIn ts) (h : expectName stop ts = .ok r) :
    isName r.value.text = true ∧ NamesIn r.rest := by
  cases ts with
  | nil => cases h
  | cons t rest =>
    rw [expectName] at h
    split at h
    · rename_i hk
      cases h
      exact ⟨hts t List.mem_cons_self hk, hts.tail⟩
    · cases h

theorem expectOp_spec {stop : Token} {o : String} {ts : List Token}
    {r : Reading Token Unit ts.length} (hts : NamesIn ts) (h : expectOp stop o ts = .ok r) :
    NamesIn r.rest := by
  cases ts with
  | nil => cases h
  | cons t rest =>
    rw [expectOp] at h
    split at h
    · cases h
      exact hts.tail
    · cases h

end Token

namespace Formula

/-- The paths that a formula sums over. -/
def paths : Formula → List Path
  | num _ => []
  | sum path => [path]
  | neg operand => operand.paths
  | bin _ left right => left.paths ++ right.paths

/-- Whether a formula sums only over paths of names. -/
def Named (f : Formula) : Prop := ∀ p ∈ f.paths, p.Named

theorem Named.bin {op : FormulaOp} {left right : Formula} (hl : left.Named) (hr : right.Named) :
    (Formula.bin op left right).Named := by
  intro p hp
  rcases List.mem_append.1 hp with hp | hp
  · exact hl p hp
  · exact hr p hp

theorem parsePath_spec {stop : Token} {ts : List Token} {r : Reading Token Path ts.length}
    (hts : NamesIn ts) (h : parsePath stop ts = .ok r) : r.value.Named ∧ NamesIn r.rest := by
  rw [parsePath] at h
  obtain ⟨name, hname, h⟩ := exists_of_bind_eq_ok h
  obtain ⟨hisName, hrest⟩ := Token.expectName_spec hts hname
  -- The mark, if it is there, takes two more tokens.
  have hrest' : NamesIn
      (if Token.bracketsNext name.rest then name.rest.drop 2 else name.rest) := by
    split
    · exact hrest.subset (List.drop_subset 2 _)
    · exact hrest
  simp only at h
  by_cases hpoint : Token.opNext "."
      (if Token.bracketsNext name.rest then name.rest.drop 2 else name.rest) = true
  · rw [if_pos hpoint] at h
    obtain ⟨more, hmore, h⟩ := exists_of_bind_eq_ok h
    obtain ⟨⟨_, hmoreNamed⟩, hmoreRest⟩ :=
      parsePath_spec (hrest'.subset (List.drop_subset 1 _)) hmore
    cases h
    refine ⟨⟨List.cons_ne_nil _ _, fun s hs => ?_⟩, hmoreRest⟩
    rcases List.mem_cons.1 hs with rfl | hs
    · exact hisName
    · exact hmoreNamed s hs
  · rw [if_neg hpoint] at h
    cases h
    refine ⟨⟨List.cons_ne_nil _ _, fun s hs => ?_⟩, hrest'⟩
    rw [List.mem_singleton.1 hs]
    exact hisName
termination_by ts.length
decreasing_by have := name.short; grind

theorem parseSumPath_spec {stop : Token} {ts : List Token} {r : Reading Token Path ts.length}
    (hts : NamesIn ts) (h : parseSumPath stop ts = .ok r) : r.value.Named ∧ NamesIn r.rest := by
  obtain ⟨p, hp, h⟩ := exists_of_bind_eq_ok h
  split at h
  · cases h
    exact parsePath_spec hts hp
  · cases h

-- The readers call each other as the rules of the grammar do. Their lemmas go the same way, and end
-- by the same measure.
mutual

/-- Of tokens whose names are names, a reader of formulas reads sums over paths of names. -/
theorem parseExpr_spec {stop : Token} {ts : List Token} {r : Reading Token Formula ts.length}
    (hts : NamesIn ts) (h : parseExpr stop ts = .ok r) : r.value.Named ∧ NamesIn r.rest := by
  rw [parseExpr] at h
  obtain ⟨t, ht, h⟩ := exists_of_bind_eq_ok h
  obtain ⟨e, he, h⟩ := exists_of_bind_eq_ok h
  obtain ⟨htNamed, htRest⟩ := parseTerm_spec hts ht
  have hmore := parseExprTail_spec htNamed htRest he
  cases h
  exact hmore
termination_by 8 * ts.length + 4
decreasing_by
  · omega
  · have := t.short; omega

theorem parseExprTail_spec {stop : Token} {left : Formula} {ts : List Token}
    {r : Reading Token Formula (ts.length + 1)} (hleft : left.Named) (hts : NamesIn ts)
    (h : parseExprTail stop left ts = .ok r) : r.value.Named ∧ NamesIn r.rest := by
  cases ts with
  | nil =>
    rw [parseExprTail] at h
    cases h
    exact ⟨hleft, hts⟩
  | cons o rest =>
    rw [parseExprTail] at h
    split at h
    · cases h
      exact ⟨hleft, hts⟩
    · obtain ⟨t, ht, h⟩ := exists_of_bind_eq_ok h
      obtain ⟨e, he, h⟩ := exists_of_bind_eq_ok h
      obtain ⟨htNamed, htRest⟩ := parseTerm_spec hts.tail ht
      have hmore := parseExprTail_spec (hleft.bin htNamed) htRest he
      cases h
      exact hmore
termination_by 8 * ts.length
decreasing_by
  · grind
  · have := t.short; grind

theorem parseTerm_spec {stop : Token} {ts : List Token} {r : Reading Token Formula ts.length}
    (hts : NamesIn ts) (h : parseTerm stop ts = .ok r) : r.value.Named ∧ NamesIn r.rest := by
  rw [parseTerm] at h
  obtain ⟨f, hf, h⟩ := exists_of_bind_eq_ok h
  obtain ⟨t, ht, h⟩ := exists_of_bind_eq_ok h
  obtain ⟨hfNamed, hfRest⟩ := parseFactor_spec hts hf
  have hmore := parseTermTail_spec hfNamed hfRest ht
  cases h
  exact hmore
termination_by 8 * ts.length + 3
decreasing_by
  · omega
  · have := f.short; omega

theorem parseTermTail_spec {stop : Token} {left : Formula} {ts : List Token}
    {r : Reading Token Formula (ts.length + 1)} (hleft : left.Named) (hts : NamesIn ts)
    (h : parseTermTail stop left ts = .ok r) : r.value.Named ∧ NamesIn r.rest := by
  cases ts with
  | nil =>
    rw [parseTermTail] at h
    cases h
    exact ⟨hleft, hts⟩
  | cons o rest =>
    rw [parseTermTail] at h
    split at h
    · cases h
      exact ⟨hleft, hts⟩
    · obtain ⟨f, hf, h⟩ := exists_of_bind_eq_ok h
      obtain ⟨t, ht, h⟩ := exists_of_bind_eq_ok h
      obtain ⟨hfNamed, hfRest⟩ := parseFactor_spec hts.tail hf
      have hmore := parseTermTail_spec (hleft.bin hfNamed) hfRest ht
      cases h
      exact hmore
termination_by 8 * ts.length
decreasing_by
  · grind
  · have := f.short; grind

theorem parseFactor_spec {stop : Token} {ts : List Token} {r : Reading Token Formula ts.length}
    (hts : NamesIn ts) (h : parseFactor stop ts = .ok r) : r.value.Named ∧ NamesIn r.rest := by
  cases ts with
  | nil =>
    rw [parseFactor] at h
    cases h
  | cons t rest =>
    rw [parseFactor] at h
    split at h
    · obtain ⟨f, hf, h⟩ := exists_of_bind_eq_ok h
      have hoperand := parseFactor_spec hts.tail hf
      cases h
      exact hoperand
    split at h
    · obtain ⟨e, he, h⟩ := exists_of_bind_eq_ok h
      obtain ⟨c, hc, h⟩ := exists_of_bind_eq_ok h
      obtain ⟨heNamed, heRest⟩ := parseExpr_spec hts.tail he
      cases h
      exact ⟨heNamed, Token.expectOp_spec heRest hc⟩
    split at h
    · cases h
      exact ⟨fun _ hp => (List.not_mem_nil hp).elim, hts.tail⟩
    split at h
    · obtain ⟨o, ho, h⟩ := exists_of_bind_eq_ok h
      obtain ⟨p, hp, h⟩ := exists_of_bind_eq_ok h
      obtain ⟨c, hc, h⟩ := exists_of_bind_eq_ok h
      obtain ⟨hpNamed, hpRest⟩ := parseSumPath_spec (Token.expectOp_spec hts.tail ho) hp
      cases h
      refine ⟨fun q hq => ?_, Token.expectOp_spec hpRest hc⟩
      rw [List.mem_singleton.1 hq]
      exact hpNamed
    · cases h
termination_by 8 * ts.length + 2
decreasing_by all_goals grind

end

/-- A formula that a text spells sums only over paths of names. -/
theorem named_of_parse {source : String} {f : Formula} (h : parse source = .ok f) : f.Named := by
  obtain ⟨ts, hts, h⟩ := exists_of_bind_eq_ok h
  obtain ⟨e, he, h⟩ := exists_of_bind_eq_ok h
  split at h
  · cases h
    exact (parseExpr_spec (namesIn_of_tokens hts) he).1
  · cases h

end Formula

end PageExtract
