/-
The tokens of a source.

A source that can be cut into tokens is made up of them and of blank characters: nothing is lost,
no two tokens overlap, and each one stands where its position says.

* `Span.Covers.ordered` — tokens come one after the other;
* `Tiling`, `tokenize_tiling` — a source is made up of its tokens.
-/
import Mathlib
import PageExtract.Proofs.Expr.Spans

namespace PageExtract

open Text

namespace Span

variable {pos : Nat} {us : List Span} {cs : List Char}

theorem Covers.blank_gap (h : Covers pos us cs) : ∀ u ∈ us, ∀ c ∈ u.gap, isBlank c = true := by
  induction h with
  | done => exact nofun
  | next hgap _ _ _ ih => exact List.forall_mem_cons.2 ⟨hgap, ih⟩

theorem pos_lt_stop {u : Span} {rest : List Char} (h : u.token.ReadFrom u.lexeme rest) :
    u.token.pos < u.stop := by
  cases hlexeme : u.lexeme with
  | nil => exact absurd hlexeme h.ne_nil
  | cons c cs =>
    have hwidth := unitWidth_pos c
    rw [stop, hlexeme, width16]
    omega

/-- No token stands before the characters it is one of, or before the end of an earlier one. -/
theorem Covers.ordered (h : Covers pos us cs) :
    (∀ u ∈ us, pos ≤ u.token.pos) ∧
      us.Pairwise fun u v => u.token.pos < v.token.pos ∧ u.stop ≤ v.token.pos := by
  induction h with
  | done => exact ⟨nofun, .nil⟩
  | @next pos u us rest hgap hpos hread h ih =>
    obtain ⟨hle, hpairwise⟩ := ih
    have hstop := pos_lt_stop hread
    refine ⟨List.forall_mem_cons.2 ⟨by omega, fun v hv => ?_⟩, .cons (fun v hv => ?_) hpairwise⟩
    · have := hle v hv
      omega
    · exact ⟨Nat.lt_of_lt_of_le hstop (hle v hv), hle v hv⟩

end Span

/-- How tokens make up a source. -/
structure Tiling (source : String) (ts : List Token) (us : List Span) (gap : List Char) :
    Prop where
  /-- The end of the source is the last token. -/
  tokens : ts = us.map Span.token ++ [⟨.eof, "", length16 source⟩]
  /-- Besides the characters of the tokens there are only gaps. -/
  chars : source.toList = us.flatMap Span.chars ++ gap
  /-- Gaps are blank, the one at the end too. -/
  blank : (∀ u ∈ us, ∀ c ∈ u.gap, isBlank c = true) ∧ ∀ c ∈ gap, isBlank c = true
  /-- Positions increase, and no token begins before the end of an earlier one. -/
  ordered : us.Pairwise fun u v => u.token.pos < v.token.pos ∧ u.stop ≤ v.token.pos
  /-- A token stands at its position and is read from the characters there. -/
  read : ∀ before u after, us = before ++ u :: after →
    u.token.pos = width16 (before.flatMap Span.chars ++ u.gap) ∧
    u.token.ReadFrom u.lexeme (after.flatMap Span.chars ++ gap)

/-- A source that can be cut into tokens is made up of them. -/
theorem tokenize_tiling {source : String} {ts : List Token} (h : tokenize source = .ok ts) :
    ∃ us gap, Tiling source ts us gap := by
  obtain ⟨us, hscan, h⟩ := exists_of_bind_eq_ok h
  cases h
  obtain ⟨spans, rfl, hcovers⟩ := Span.exists_covers_of_tokens hscan
  obtain ⟨gap, hgap, hchars, hread⟩ := hcovers.split
  simp only [Nat.zero_add] at hread
  exact ⟨spans, gap, rfl, hchars, ⟨hcovers.blank_gap, hgap⟩, hcovers.ordered.2, hread⟩

-- A name, a point before a digit, an operator that another one begins, a numeral and a quoted text.
theorem tokenize_tiling_mixed :
    ∃ ts, ts = [⟨.ident, "a", 0⟩, ⟨.op, ".", 1⟩, ⟨.num, "5", 2⟩, ⟨.op, "<=", 3⟩, ⟨.num, ".5", 6⟩,
        ⟨.str, "b'c", 9⟩, ⟨.eof, "", 15⟩] ∧
      tokenize "a.5<= .5 'b\\'c'" = .ok ts ∧ ∃ us gap, Tiling "a.5<= .5 'b\\'c'" ts us gap := by
  have h : tokenize "a.5<= .5 'b\\'c'" =
      .ok [⟨.ident, "a", 0⟩, ⟨.op, ".", 1⟩, ⟨.num, "5", 2⟩, ⟨.op, "<=", 3⟩, ⟨.num, ".5", 6⟩,
        ⟨.str, "b'c", 9⟩, ⟨.eof, "", 15⟩] := by cbv
  exact ⟨_, rfl, h, tokenize_tiling h⟩

end PageExtract
