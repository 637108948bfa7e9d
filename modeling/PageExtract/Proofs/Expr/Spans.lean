/-
What the tokens of a source are read from.

The reader of tokens loses nothing: the characters of a source are those of its tokens, in order,
with blank characters before and after them, and every token stands where its position says.

* `Token.Unescapes` — the characters between quotation marks, and what they stand for;
* `Token.ReadFrom` — the characters that a token is read from;
* `Token.scan_step` — what one step of the reader does;
* `Span`, `Span.Covers` — tokens with their characters, and characters that are made up of them;
* `Span.Covers.split` — where the tokens stand in these characters.
-/
import Mathlib.Data.List.Basic
import PageExtract.Expr.Token
import PageExtract.Proofs.Text.Runs

namespace PageExtract

open Text

/-- A computation with a result goes through the result of its first part. -/
theorem exists_of_bind_eq_ok {ε α β : Type} {x : Except ε α} {f : α → Except ε β} {b : β}
    (h : x >>= f = .ok b) : ∃ a, x = .ok a ∧ f a = .ok b := by
  cases x with
  | error e => cases h
  | ok a => exact ⟨a, rfl, h⟩

namespace Token

/-! ### Single tokens -/

/-- The characters between quotation marks, up to the first one that no backslash stands before,
and the characters that they stand for. -/
inductive Unescapes (quote : Char) : List Char → List Char → Prop
  | nil : Unescapes quote [] []
  | escaped (c : Char) {body cs : List Char} (h : Unescapes quote body cs) :
      Unescapes quote ('\\' :: c :: body) (unescape c :: cs)
  | plain {c : Char} {body cs : List Char} (hescape : c ≠ '\\') (hquote : c ≠ quote)
      (h : Unescapes quote body cs) : Unescapes quote (c :: body) (c :: cs)

/-- The characters that a token is read from, and what follows them. A quoted text has its halves
joined after its escapes are resolved. No longer operator stands where an operator is read. -/
inductive ReadFrom : Token → List Char → List Char → Prop
  | num {s : String} {pos : Nat} {rest : List Char}
      (hs : Numeral.scan? (s.toList ++ rest) = some (s.toList, rest)) :
      ReadFrom ⟨.num, s, pos⟩ s.toList rest
  | ident {s : String} {pos : Nat} {rest : List Char} (hs : isName s = true)
      (hend : ∀ c ∈ rest.head?, isNameChar c = false) : ReadFrom ⟨.ident, s, pos⟩ s.toList rest
  | op {s : String} {pos : Nat} {rest : List Char} (hs : s ∈ operators)
      (hlongest : ∀ o ∈ operators, s.toList <+: o.toList → o.toList <+: s.toList ++ rest → o = s) :
      ReadFrom ⟨.op, s, pos⟩ s.toList rest
  | str {quote : Char} {body cs rest : List Char} {pos : Nat} (hquote : isQuote quote = true)
      (hbody : Unescapes quote body cs) :
      ReadFrom ⟨.str, joined (String.ofList cs), pos⟩ (quote :: (body ++ [quote])) rest

theorem ne_nil_of_operators {o : String} (ho : o ∈ operators) : o.toList ≠ [] := by
  have hall : operators.all (fun o => !o.toList.isEmpty) = true := by decide
  simpa using List.all_eq_true.1 hall o ho

/-- A token is read from at least one character. -/
theorem ReadFrom.ne_nil {t : Token} {lexeme rest : List Char} (h : t.ReadFrom lexeme rest) :
    lexeme ≠ [] := by
  cases h with
  | num hs => exact Numeral.ne_nil_of_scan hs
  | ident hs =>
    intro hnil
    rw [isName, hnil] at hs
    cases hs
  | op hs => exact ne_nil_of_operators hs
  | str => exact List.cons_ne_nil _ _

/-- A name is read from a name. -/
theorem ReadFrom.isName {t : Token} {lexeme rest : List Char} (h : t.ReadFrom lexeme rest)
    (ht : t.kind = .ident) : isName t.text = true := by
  cases h with
  | ident hs => exact hs
  | num | op | str => cases ht

theorem unescapes_of_readQuoted {quote : Char} {acc cs rest : List Char} {s : String}
    (h : readQuoted quote acc cs = some (s, rest)) :
    ∃ body text, cs = body ++ quote :: rest ∧ Unescapes quote body text ∧
      s = joined (String.ofList (acc.reverse ++ text)) := by
  -- The characters before are kept last first, so that the induction is for all of them.
  fun_induction readQuoted quote acc cs with
  | case1 => cases h
  | case2 acc c cs ih =>
    obtain ⟨body, text, rfl, hbody, hs⟩ := ih h
    exact ⟨'\\' :: c :: body, unescape c :: text, rfl, .escaped c hbody, by simpa using hs⟩
  | case3 acc c cs hescape hc =>
    cases h
    exact ⟨[], [], by simpa using hc, .nil, by rw [List.append_nil]⟩
  | case4 acc c cs hescape hc ih =>
    obtain ⟨body, text, rfl, hbody, hs⟩ := ih h
    have hplain : c ≠ '\\' := by
      rintro rfl
      -- A backslash at the very end would leave no closing quotation mark.
      cases body with
      | nil => exact hescape quote rest rfl rfl
      | cons d body => exact hescape d (body ++ quote :: rest) rfl rfl
    exact ⟨c :: body, c :: text, rfl, .plain hplain (by simpa using hc) hbody, by simpa using hs⟩

/-- What follows an operator, once its first character is taken off. -/
theorem drop_operator {o : String} (ho : o ∈ operators) {c : Char} {cs rest : List Char}
    (h : c :: cs = o.toList ++ rest) : cs.drop (o.length - 1) = rest := by
  cases hlist : o.toList with
  | nil => exact absurd hlist (ne_nil_of_operators ho)
  | cons d more =>
    rw [hlist, List.cons_append] at h
    rw [← String.length_toList, hlist, List.length_cons, Nat.add_sub_cancel, (List.cons.inj h).2,
      List.drop_left]

/-- No operator begins one that comes after it. -/
theorem pairwise_operators : operators.Pairwise fun o p => ¬ o.toList <+: p.toList := by decide

/-- The first operator that stands at the front is the longest one. -/
theorem readFrom_of_operatorAt? {o : String} {cs : List Char} (ho : operatorAt? cs = some o)
    (pos : Nat) : ∃ rest, cs = o.toList ++ rest ∧ ReadFrom ⟨.op, o, pos⟩ o.toList rest := by
  obtain ⟨hfront, before, after, hlist, hbefore⟩ := List.find?_eq_some_iff_append.1 ho
  obtain ⟨rest, rfl⟩ := List.isPrefixOf_iff_prefix.1 hfront
  refine ⟨rest, rfl, .op (List.mem_of_find?_eq_some ho) fun p hp hlonger hstands => ?_⟩
  rw [hlist] at hp
  rcases List.mem_append.1 hp with hp | hp
  · -- What comes before in the list does not stand there.
    have hnot := hbefore p hp
    rw [List.isPrefixOf_iff_prefix.2 hstands] at hnot
    cases hnot
  · rcases List.mem_cons.1 hp with rfl | hp
    · rfl
    · have hpairwise := pairwise_operators
      rw [hlist] at hpairwise
      have hafter := (List.pairwise_cons.1 (List.pairwise_append.1 hpairwise).2.1).1 p hp
      exact absurd hlonger hafter

/-- A character that starts a name, with the characters after it that go on with the name. -/
theorem isName_lexeme {c : Char} (h : isNameStart c = true) (cs : List Char) :
    isName (String.ofList (c :: cs.takeWhile isNameChar)) = true := by
  unfold isName
  rw [String.toList_ofList, isNameChars, h, Bool.true_and]
  exact List.all_takeWhile

theorem readFrom_name {c : Char} (hc : isNameStart c = true) (cs : List Char) (pos : Nat) :
    ReadFrom ⟨.ident, String.ofList (c :: cs.takeWhile isNameChar), pos⟩
      (c :: cs.takeWhile isNameChar) (cs.dropWhile isNameChar) := by
  have hread : ReadFrom ⟨.ident, String.ofList (c :: cs.takeWhile isNameChar), pos⟩
      (String.ofList (c :: cs.takeWhile isNameChar)).toList (cs.dropWhile isNameChar) :=
    .ident (isName_lexeme hc cs) (head?_dropWhile_run isNameChar cs)
  rwa [String.toList_ofList] at hread

theorem readFrom_numeral {cs lexeme rest : List Char}
    (h : Numeral.scan? cs = some (lexeme, rest)) (pos : Nat) :
    ReadFrom ⟨.num, String.ofList lexeme, pos⟩ lexeme rest := by
  have hlist : (String.ofList lexeme).toList = lexeme := String.toList_ofList
  have hread : ReadFrom ⟨.num, String.ofList lexeme, pos⟩ (String.ofList lexeme).toList rest :=
    .num (by rw [hlist, Numeral.scan_append h, h])
  rwa [hlist] at hread

/-- What one step of the reader of tokens does: it ends, passes over a blank character or reads a
token from the characters at the front. -/
theorem scan_step {total : Nat} {last : TokenKind} {cs : List Char} {ts : List Token}
    (h : Token.scan total last cs = .ok ts) :
    (cs = [] ∧ ts = []) ∨
    (∃ c rest, cs = c :: rest ∧ isBlank c = true ∧ Token.scan total last rest = .ok ts) ∨
    ∃ t lexeme rest us, cs = lexeme ++ rest ∧ ts = t :: us ∧ t.pos = total - width16 cs ∧
      t.ReadFrom lexeme rest ∧ Token.scan total t.kind rest = .ok us := by
  rw [Token.scan.eq_def] at h
  cases cs with
  | nil =>
    cases h
    exact .inl ⟨rfl, rfl⟩
  | cons c rest =>
    simp only at h
    split at h
    · rename_i hblank
      exact .inr (.inl ⟨c, rest, rfl, hblank, h⟩)
    refine .inr (.inr ?_)
    split at h
    · rename_i hquote
      split at h
      · rename_i s rest' hread
        obtain ⟨us, hus, h⟩ := exists_of_bind_eq_ok h
        cases h
        obtain ⟨body, text, rfl, hbody, rfl⟩ := unescapes_of_readQuoted hread
        exact ⟨_, c :: (body ++ [c]), rest', us, by simp, rfl, rfl, .str hquote hbody, hus⟩
      · cases h
    · split at h
      · rename_i lexeme rest' hscan
        obtain ⟨us, hus, h⟩ := exists_of_bind_eq_ok h
        cases h
        split at hscan
        · cases hscan
        · exact ⟨_, lexeme, rest', us, (Numeral.scan_append hscan).symm, rfl, rfl,
            readFrom_numeral hscan _, hus⟩
      · split at h
        · rename_i hstart
          obtain ⟨us, hus, h⟩ := exists_of_bind_eq_ok h
          cases h
          exact ⟨_, c :: rest.takeWhile isNameChar, rest.dropWhile isNameChar, us,
            by rw [List.cons_append, List.takeWhile_append_dropWhile], rfl, rfl,
            readFrom_name hstart rest _, hus⟩
        · split at h
          · rename_i o ho
            obtain ⟨us, hus, h⟩ := exists_of_bind_eq_ok h
            cases h
            obtain ⟨rest', hrest, hread⟩ := readFrom_of_operatorAt? ho (total - width16 (c :: rest))
            refine ⟨_, o.toList, rest', us, hrest, rfl, rfl, hread, ?_⟩
            rwa [drop_operator (List.mem_of_find?_eq_some ho) hrest] at hus
          · cases h

end Token

/-! ### Sources -/

/-- A token with the characters it is read from and the blank ones before them. -/
structure Span where
  gap : List Char
  token : Token
  lexeme : List Char

namespace Span

/-- The characters of a span. -/
def chars (u : Span) : List Char := u.gap ++ u.lexeme

/-- Where a token ends. -/
def stop (u : Span) : Nat := u.token.pos + width16 u.lexeme

/-- Characters that stand at a position and are made up of spans and of blank characters at the
end. -/
inductive Covers : Nat → List Span → List Char → Prop
  | done {pos : Nat} {gap : List Char} (hgap : ∀ c ∈ gap, isBlank c = true) : Covers pos [] gap
  | next {pos : Nat} {u : Span} {us : List Span} {rest : List Char}
      (hgap : ∀ c ∈ u.gap, isBlank c = true) (hpos : u.token.pos = pos + width16 u.gap)
      (hread : u.token.ReadFrom u.lexeme rest) (h : Covers u.stop us rest) :
      Covers pos (u :: us) (u.chars ++ rest)

variable {pos : Nat} {us : List Span} {cs : List Char}

/-- One more blank character in front belongs to the first gap. -/
theorem Covers.blank {c : Char} (hc : isBlank c = true) (h : Covers (pos + unitWidth c) us cs) :
    ∃ vs : List Span, vs.map token = us.map token ∧ Covers pos vs (c :: cs) := by
  cases h with
  | done hgap => exact ⟨[], rfl, .done (List.forall_mem_cons.2 ⟨hc, hgap⟩)⟩
  | @next _ u us rest hgap hpos hread h =>
    have hpos' : u.token.pos = pos + width16 (c :: u.gap) := by
      rw [hpos, width16, Nat.add_assoc]
    exact ⟨⟨c :: u.gap, u.token, u.lexeme⟩ :: us, rfl,
      .next (List.forall_mem_cons.2 ⟨hc, hgap⟩) hpos' hread h⟩

/-- The tokens of some characters make them up. -/
theorem exists_covers_of_scan {total : Nat} {last : TokenKind} {ts : List Token}
    (hcs : width16 cs ≤ total) (h : Token.scan total last cs = .ok ts) :
    ∃ us : List Span, us.map token = ts ∧ Covers (total - width16 cs) us cs := by
  -- The induction is on how many characters are left: a token takes several of them.
  induction hn : cs.length using Nat.strongRecOn generalizing last cs ts with
  | ind n ih =>
    subst hn
    obtain ⟨rfl, rfl⟩ | ⟨c, rest, rfl, hblank, h⟩ |
      ⟨t, lexeme, rest, us, rfl, rfl, hpos, hread, h⟩ := Token.scan_step h
    · exact ⟨[], rfl, .done (List.forall_mem_nil _)⟩
    · rw [width16] at hcs
      obtain ⟨us, rfl, hcovers⟩ := ih rest.length (Nat.lt_succ_self _) (by omega) h rfl
      have hstart : total - width16 rest = total - width16 (c :: rest) + unitWidth c := by
        rw [width16]
        omega
      rw [hstart] at hcovers
      exact hcovers.blank hblank
    · have hlength : rest.length < (lexeme ++ rest).length := by
        have := List.length_pos_iff.2 hread.ne_nil
        rw [List.length_append]
        omega
      rw [width16_append] at hcs hpos
      obtain ⟨us, rfl, hcovers⟩ := ih rest.length hlength (by omega) h rfl
      have hstop : total - width16 rest = Span.stop ⟨[], t, lexeme⟩ := by
        simp only [stop, hpos]
        omega
      rw [hstop] at hcovers
      exact ⟨⟨[], t, lexeme⟩ :: us, rfl,
        .next (List.forall_mem_nil _) (by rw [hpos, width16_append]; rfl) hread hcovers⟩

/-- The tokens of a source make it up. -/
theorem exists_covers_of_tokens {source : String} {ts : List Token} (h : tokens source = .ok ts) :
    ∃ us : List Span, us.map token = ts ∧ Covers 0 us source.toList := by
  obtain ⟨us, hus, hcovers⟩ := exists_covers_of_scan (Nat.le_refl (length16 source)) h
  rw [length16, Nat.sub_self] at hcovers
  exact ⟨us, hus, hcovers⟩

theorem Covers.readFrom (h : Covers pos us cs) :
    ∀ u ∈ us, ∃ rest, u.token.ReadFrom u.lexeme rest := by
  induction h with
  | done => exact nofun
  | next _ _ hread _ ih => exact List.forall_mem_cons.2 ⟨⟨_, hread⟩, ih⟩

/-- The characters are those of the spans, in order, and each token stands where it is read. -/
theorem Covers.split (h : Covers pos us cs) :
    ∃ gap, (∀ c ∈ gap, isBlank c = true) ∧ cs = us.flatMap chars ++ gap ∧
      ∀ before u after, us = before ++ u :: after →
        u.token.pos = pos + width16 (before.flatMap chars ++ u.gap) ∧
        u.token.ReadFrom u.lexeme (after.flatMap chars ++ gap) := by
  induction h with
  | done hgap => exact ⟨_, hgap, rfl, fun before u after h => absurd h (by simp)⟩
  | @next pos v us rest hgap hpos hread h ih =>
    obtain ⟨gap, hblank, rfl, hsplit⟩ := ih
    refine ⟨gap, hblank, by rw [List.flatMap_cons, List.append_assoc], ?_⟩
    intro before u after hus
    cases before with
    | nil =>
      obtain ⟨rfl, rfl⟩ := List.cons.inj hus
      exact ⟨hpos, hread⟩
    | cons w before =>
      obtain ⟨rfl, htail⟩ := List.cons.inj hus
      obtain ⟨hupos, huread⟩ := hsplit before u after htail
      refine ⟨?_, huread⟩
      rw [hupos, stop, hpos, List.flatMap_cons, chars]
      simp only [width16_append]
      omega

end Span

end PageExtract
