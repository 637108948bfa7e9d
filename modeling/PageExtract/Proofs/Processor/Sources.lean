/-
How sources are spelled and read.

A source is read back from its spelling, and nothing else spells it but a short form or zeros before
its index. The readers take a text apart from the left, and one lemma for each of them says what it
accepts:

* `Source.Named`, `Source.padded`, `Source.short?`, `Source.Spelled` — the texts that spell a
  source;
* `Source.bracketed?_eq_some_iff`, `Source.ofAnchor?_eq_some_iff`, … — what the readers accept;
* `Source.parse?_eq_some_iff` — a text is read as a source just when it spells it;
* `Source.parse_spelled` — spelling, reading and refusing together.
-/
import PageExtract.Processor.Source
import PageExtract.Proofs.Number.ReadBack
import PageExtract.Proofs.Record.Spelling
import PageExtract.Proofs.Text.Words

namespace PageExtract

open Shortest (natDigits)

/-! ### Numbers with zeros before them -/

namespace Numeral

/-- Some digits are those of the number that they write, with zeros before them. -/
theorem exists_zeros_append_natDigits {ds : List Char} (hne : ds ≠ [])
    (hds : ∀ c ∈ ds, c.isDigit = true) :
    ∃ zeros, ds = List.replicate zeros '0' ++ natDigits (natOfDigits ds) := by
  induction ds with
  | nil => exact absurd rfl hne
  | cons d ds ih =>
    -- A zero in front counts for nothing, unless it is the whole number.
    by_cases hzero : d = '0' ∧ ds ≠ []
    · obtain ⟨rfl, hmore⟩ := hzero
      obtain ⟨zeros, hzeros⟩ := ih hmore fun c hc => hds c (List.mem_cons_of_mem _ hc)
      have hvalue : natOfDigits ('0' :: ds) = natOfDigits ds := natOfDigits_zeros_append 1 ds
      refine ⟨zeros + 1, ?_⟩
      rw [hvalue, List.replicate_succ, List.cons_append, ← hzeros]
    · have hleading : ds = [] ∨ d ≠ '0' := by
        by_cases hnil : ds = []
        · exact .inl hnil
        · exact .inr fun hd => hzero ⟨hd, hnil⟩
      exact ⟨0, (natDigits_natOfDigits hds hleading).symm⟩

end Numeral

namespace Source

/-! ### Spellings -/

/-- The anchor or the region that a source names has a name that texts can spell. -/
def Named : Source → Prop
  | anchorText a | anchorRight a _ | anchorNext a => isName a = true
  | regionText r | regionColumn r _ | regionRows r => isName r = true
  | literal _ => True

/-- A number of zeros. -/
def zeroDigits (zeros : Nat) : String := String.ofList (List.replicate zeros '0')

/-- How a source is spelled with zeros before its index. -/
def padded (zeros : Nat) : Source → String
  | anchorRight a i => s!"anchor.{a}.right[{zeroDigits zeros}{i}]"
  | regionColumn r i => s!"region.{r}.column[{zeroDigits zeros}{i}]"
  | source => source.text

/-- The short form of a source that has one. -/
def short? : Source → Option String
  | anchorText a => some s!"anchor.{a}"
  | anchorRight a 0 => some s!"anchor.{a}.right"
  | regionText r => some s!"region.{r}"
  | _ => none

/-- A text spells a source: a literal as it is, and other sources in full or in short, with blank
characters around them. -/
def Spelled (s : String) : Source → Prop
  | literal v => s = "literal:" ++ v
  | source => source.Named ∧
      ((∃ zeros, Text.trim s = source.padded zeros) ∨ source.short? = some (Text.trim s))

theorem padded_zero (source : Source) : source.padded 0 = source.text := by
  have hnone : zeroDigits 0 = "" := rfl
  cases source with
  | anchorRight a i => simp only [padded, text, hnone, toString, String.append_empty]
  | regionColumn r i => simp only [padded, text, hnone, toString, String.append_empty]
  | anchorText | anchorNext | regionText | regionRows | literal => rfl

/-! ### Readers -/

section

variable {cs rest : List Char} {name : String} {source : Source} {index : Nat}

theorem after?_eq_some_iff {head : String} :
    after? head cs = some rest ↔ cs = head.toList ++ rest := by
  rw [after?]
  constructor
  · intro h
    split at h
    · rename_i hfront
      obtain ⟨rest', rfl⟩ := List.isPrefixOf_iff_prefix.1 hfront
      rw [List.drop_left] at h
      rw [Option.some.inj h]
    · cases h
  · rintro rfl
    rw [if_pos (List.isPrefixOf_iff_prefix.2 (List.prefix_append _ _)), List.drop_left]

/-- An index as it is spelled, with zeros before it. -/
def indexChars (zeros index : Nat) : List Char :=
  '[' :: (List.replicate zeros '0' ++ natDigits index ++ [']'])

theorem isDigit_of_mem_padded (zeros index : Nat) :
    ∀ c ∈ List.replicate zeros '0' ++ natDigits index, c.isDigit = true :=
  List.forall_mem_append.2
    ⟨Numeral.isDigit_of_mem_zeros zeros, fun _ => Numeral.isDigit_of_mem_natDigits⟩

theorem bracketed?_eq_some_iff :
    bracketed? cs = some index ↔ ∃ zeros, cs = indexChars zeros index := by
  constructor
  · intro h
    unfold bracketed? at h
    split at h
    · rename_i cs
      split at h
      · cases h
      · rename_i ds hne hdigits
        cases h
        have happend := Numeral.digits_append cs
        have hds : ∀ c ∈ ds, c.isDigit = true := by
          have hall := List.all_takeWhile (l := cs) (p := Char.isDigit)
          rw [show cs.takeWhile Char.isDigit = ds from congrArg Prod.fst hdigits] at hall
          exact List.all_eq_true.1 hall
        obtain ⟨zeros, hzeros⟩ := Numeral.exists_zeros_append_natDigits (by simpa using hne) hds
        rw [hdigits] at happend
        exact ⟨zeros, by rw [indexChars, ← hzeros, ← happend]⟩
      · cases h
    · cases h
  · rintro ⟨zeros, rfl⟩
    have hend : ∀ c ∈ [']'].head?, c.isDigit = false := by
      rintro _ ⟨⟩
      rfl
    have hdigits := Numeral.digits_run _ [']'] (isDigit_of_mem_padded zeros index) hend
    have hvalue : Numeral.natOfDigits (List.replicate zeros '0' ++ natDigits index) = index := by
      rw [Numeral.natOfDigits_zeros_append, Numeral.natOfDigits_natDigits]
    rw [indexChars, bracketed?, hdigits]
    split
    · rename_i hnil
      have hnone := congrArg (fun p => p.1) hnil
      simp [natDigits] at hnone
    · rename_i ds _ hds
      cases hds
      rw [hvalue]
    · rename_i hother
      exact absurd rfl (hother _)

theorem indexed_eq_some_iff {head : String} {make : Nat → Source} :
    (do make <$> bracketed? (← after? head cs)) = some source ↔
      ∃ zeros index, source = make index ∧ cs = head.toList ++ indexChars zeros index := by
  constructor
  · intro h
    obtain ⟨rest, hrest, h⟩ := Option.bind_eq_some_iff.1 h
    obtain ⟨index, hindex, rfl⟩ := Option.map_eq_some_iff.1 h
    obtain ⟨zeros, rfl⟩ := bracketed?_eq_some_iff.1 hindex
    exact ⟨zeros, index, rfl, after?_eq_some_iff.1 hrest⟩
  · rintro ⟨zeros, index, rfl, rfl⟩
    exact Option.bind_eq_some_iff.2 ⟨indexChars zeros index, after?_eq_some_iff.2 rfl,
      Option.map_eq_some_iff.2 ⟨index, bracketed?_eq_some_iff.2 ⟨zeros, rfl⟩, rfl⟩⟩

/-- Where a source takes its value from: the word that its spelling begins with, and the name after
that. -/
def place : Source → String × String
  | anchorText a | anchorRight a _ | anchorNext a => ("anchor.", a)
  | regionText r | regionColumn r _ | regionRows r => ("region.", r)
  | literal v => ("literal:", v)

/-- What may follow the name in a spelling of a source. -/
def Tail (cs : List Char) : Source → Prop
  | anchorText _ | regionText _ => cs = [] ∨ cs = ".text".toList
  | anchorRight _ i => (i = 0 ∧ cs = ".right".toList) ∨
      ∃ zeros, cs = ".right".toList ++ indexChars zeros i
  | anchorNext _ => cs = ".next".toList
  | regionColumn _ i => ∃ zeros, cs = ".column".toList ++ indexChars zeros i
  | regionRows _ => cs = ".rows".toList
  | literal _ => False

theorem ofAnchor?_eq_some_iff :
    ofAnchor? name cs = some source ↔ source.place = ("anchor.", name) ∧ source.Tail cs := by
  constructor
  · intro h
    unfold ofAnchor? at h
    split at h
    · rename_i htext
      cases h
      exact ⟨rfl, by simpa only [Tail, Bool.or_eq_true, beq_iff_eq] using htext⟩
    split at h
    · rename_i hnext
      cases h
      exact ⟨rfl, beq_iff_eq.1 hnext⟩
    split at h
    · rename_i hright
      cases h
      exact ⟨rfl, .inl ⟨rfl, beq_iff_eq.1 hright⟩⟩
    obtain ⟨zeros, index, rfl, rfl⟩ := indexed_eq_some_iff.1 h
    exact ⟨rfl, .inr ⟨zeros, rfl⟩⟩
  · rintro ⟨hname, htail⟩
    cases source with
    | anchorText a =>
      cases hname
      rcases htail with rfl | rfl <;> rfl
    | anchorNext a =>
      cases hname
      cases htail
      rfl
    | anchorRight a i =>
      cases hname
      obtain ⟨rfl, rfl⟩ | ⟨zeros, rfl⟩ := htail
      · rfl
      · rw [ofAnchor?, if_neg (by simp [indexChars]), if_neg (by simp [indexChars]),
          if_neg (by simp [indexChars])]
        exact indexed_eq_some_iff.2 ⟨zeros, i, rfl, rfl⟩
    | regionText | regionColumn | regionRows | literal => simp [place] at hname

theorem ofRegion?_eq_some_iff :
    ofRegion? name cs = some source ↔ source.place = ("region.", name) ∧ source.Tail cs := by
  constructor
  · intro h
    unfold ofRegion? at h
    split at h
    · rename_i htext
      cases h
      exact ⟨rfl, by simpa only [Tail, Bool.or_eq_true, beq_iff_eq] using htext⟩
    split at h
    · rename_i hrows
      cases h
      exact ⟨rfl, beq_iff_eq.1 hrows⟩
    obtain ⟨zeros, index, rfl, rfl⟩ := indexed_eq_some_iff.1 h
    exact ⟨rfl, zeros, rfl⟩
  · rintro ⟨hname, htail⟩
    cases source with
    | regionText r =>
      cases hname
      rcases htail with rfl | rfl <;> rfl
    | regionRows r =>
      cases hname
      cases htail
      rfl
    | regionColumn r i =>
      cases hname
      obtain ⟨zeros, rfl⟩ := htail
      rw [ofRegion?, if_neg (by simp [indexChars]), if_neg (by simp [indexChars])]
      exact indexed_eq_some_iff.2 ⟨zeros, i, rfl, rfl⟩
    | anchorText | anchorRight | anchorNext | literal => simp [place] at hname

/-- A name goes on as far as it can. -/
theorem ofNamed?_eq_some_iff {read : String → List Char → Option Source} :
    ofNamed? read cs = some source ↔
      ∃ name rest, isName name = true ∧ (∀ c ∈ rest.head?, isNameChar c = false) ∧
        cs = name.toList ++ rest ∧ read name rest = some source := by
  constructor
  · intro h
    simp only [ofNamed?, nameAndRest] at h
    obtain ⟨hname, h⟩ := Option.ite_none_right_eq_some.1 h
    refine ⟨String.ofList (cs.takeWhile isNameChar), cs.dropWhile isNameChar, ?_,
      Text.head?_dropWhile_run isNameChar cs, ?_, h⟩
    · rwa [isName, String.toList_ofList]
    · rw [String.toList_ofList, List.takeWhile_append_dropWhile]
  · rintro ⟨name, rest, hname, hend, rfl, h⟩
    have hall : ∀ c ∈ name.toList, isNameChar c = true := fun c => isNameChar_of_isName hname
    rw [ofNamed?, nameAndRest, Text.takeWhile_run hall hend, Text.dropWhile_run hall hend]
    exact Option.ite_none_right_eq_some.2 ⟨hname, by rw [String.ofList_toList, h]⟩

theorem head?_of_tail (h : source.Tail rest) : ∀ c ∈ rest.head?, isNameChar c = false := by
  cases source with
  | anchorText | regionText =>
    rcases h with rfl | rfl
    · rintro _ ⟨⟩
    · rintro _ ⟨⟩
      rfl
  | anchorRight =>
    obtain ⟨-, rfl⟩ | ⟨zeros, rfl⟩ := h
    all_goals
      rintro _ ⟨⟩
      rfl
  | anchorNext | regionRows =>
    cases h
    rintro _ ⟨⟩
    rfl
  | regionColumn =>
    obtain ⟨zeros, rfl⟩ := h
    rintro _ ⟨⟩
    rfl
  | literal => cases h

theorem place_of_tail (h : source.Tail rest) :
    source.place.1 = "anchor." ∨ source.place.1 = "region." := by
  cases source with
  | anchorText | anchorRight | anchorNext => exact .inl rfl
  | regionText | regionColumn | regionRows => exact .inr rfl
  | literal => cases h

/-- A text that spells a source begins with the place that the source takes its value from. -/
theorem ofChars?_eq_some_iff : ofChars? cs = some source ↔
    isName source.place.2 = true ∧ ∃ rest, source.Tail rest ∧
      cs = source.place.1.toList ++ (source.place.2.toList ++ rest) := by
  constructor
  · intro h
    unfold ofChars? at h
    split at h
    · rename_i rest hanchor
      obtain ⟨name, tail, hname, -, rfl, hread⟩ := ofNamed?_eq_some_iff.1 h
      obtain ⟨hplace, htail⟩ := ofAnchor?_eq_some_iff.1 hread
      rw [hplace]
      exact ⟨hname, tail, htail, after?_eq_some_iff.1 hanchor⟩
    · split at h
      · rename_i rest hregion
        obtain ⟨name, tail, hname, -, rfl, hread⟩ := ofNamed?_eq_some_iff.1 h
        obtain ⟨hplace, htail⟩ := ofRegion?_eq_some_iff.1 hread
        rw [hplace]
        exact ⟨hname, tail, htail, after?_eq_some_iff.1 hregion⟩
      · cases h
  · rintro ⟨hname, tail, htail, rfl⟩
    -- The name ends where its tail begins, so the reader cuts the text where the spelling does.
    have hend := head?_of_tail htail
    rcases place_of_tail htail with hword | hword
    · have hafter (cs : List Char) : after? "anchor." ("anchor.".toList ++ cs) = some cs :=
        after?_eq_some_iff.2 rfl
      rw [hword, ofChars?, hafter]
      exact ofNamed?_eq_some_iff.2
        ⟨_, _, hname, hend, rfl, ofAnchor?_eq_some_iff.2 ⟨Prod.ext hword rfl, htail⟩⟩
    · have hnone (cs : List Char) : after? "anchor." ("region.".toList ++ cs) = none := rfl
      have hafter (cs : List Char) : after? "region." ("region.".toList ++ cs) = some cs :=
        after?_eq_some_iff.2 rfl
      rw [hword, ofChars?, hnone, hafter]
      exact ofNamed?_eq_some_iff.2
        ⟨_, _, hname, hend, rfl, ofRegion?_eq_some_iff.2 ⟨Prod.ext hword rfl, htail⟩⟩

end

/-! ### Texts -/

section

variable (word name tail : String)

theorem append_tail :
    word ++ name ++ tail = word ++ (name ++ String.ofList tail.toList) := by
  rw [String.ofList_toList, String.append_assoc]

theorem append_index (zeros index : Nat) :
    word ++ name ++ (tail ++ "[") ++ zeroDigits zeros ++ toString index ++ "]" =
      word ++ (name ++ String.ofList (tail.toList ++ indexChars zeros index)) := by
  rw [← String.toList_inj]
  simp [zeroDigits, indexChars, natDigits]

theorem append_nothing : word ++ name = word ++ (name ++ String.ofList []) := by
  rw [← String.toList_inj]
  simp

variable (s : String)

theorem spells_text_iff :
    ((∃ _zeros : Nat, s = word ++ name ++ ".text") ∨ some (word ++ name) = some s) ↔
      ∃ rest, (rest = [] ∨ rest = ".text".toList) ∧
        s = word ++ (name ++ String.ofList rest) := by
  constructor
  · rintro (⟨-, rfl⟩ | h)
    · exact ⟨_, .inr rfl, append_tail word name ".text"⟩
    · rw [← Option.some.inj h]
      exact ⟨[], .inl rfl, append_nothing word name⟩
  · rintro ⟨rest, rfl | rfl, rfl⟩
    · exact .inr (congrArg some (append_nothing word name))
    · exact .inl ⟨0, (append_tail word name ".text").symm⟩

theorem spells_word_iff :
    ((∃ _zeros : Nat, s = word ++ name ++ tail) ∨ none = some s) ↔
      ∃ rest, rest = tail.toList ∧ s = word ++ (name ++ String.ofList rest) := by
  constructor
  · rintro (⟨-, rfl⟩ | ⟨⟨⟩⟩)
    exact ⟨_, rfl, append_tail word name tail⟩
  · rintro ⟨rest, rfl, rfl⟩
    exact .inl ⟨0, (append_tail word name tail).symm⟩

theorem spells_index_iff (index : Nat) :
    (∃ zeros, s = word ++ name ++ (tail ++ "[") ++ zeroDigits zeros ++ toString index ++ "]") ↔
      ∃ rest, (∃ zeros, rest = tail.toList ++ indexChars zeros index) ∧
        s = word ++ (name ++ String.ofList rest) := by
  constructor
  · rintro ⟨zeros, rfl⟩
    exact ⟨_, ⟨zeros, rfl⟩, append_index word name tail zeros index⟩
  · rintro ⟨rest, ⟨zeros, rfl⟩, rfl⟩
    exact ⟨zeros, (append_index word name tail zeros index).symm⟩

end

/-- The texts that spell a source go on after its name with what may follow there. -/
theorem spells_iff {source : Source} (hsource : ∀ v, source ≠ literal v) (s : String) :
    ((∃ zeros, s = source.padded zeros) ∨ source.short? = some s) ↔
      ∃ rest, source.Tail rest ∧
        s = source.place.1 ++ (source.place.2 ++ String.ofList rest) := by
  cases source with
  | anchorText a => exact spells_text_iff "anchor." a s
  | regionText r => exact spells_text_iff "region." r s
  | anchorNext a => exact spells_word_iff "anchor." a ".next" s
  | regionRows r => exact spells_word_iff "region." r ".rows" s
  | regionColumn r i =>
    have hindex := spells_index_iff "region." r ".column" s i
    simp only [short?, reduceCtorEq, or_false]
    exact hindex
  | anchorRight a i =>
    have hindex := spells_index_iff "anchor." a ".right" s i
    constructor
    · rintro (h | h)
      · obtain ⟨rest, htail, hs⟩ := hindex.1 h
        exact ⟨rest, .inr htail, hs⟩
      · cases i with
        | zero =>
          rw [← Option.some.inj h]
          exact ⟨_, .inl ⟨rfl, rfl⟩, append_tail "anchor." a ".right"⟩
        | succ => cases h
    · rintro ⟨rest, ⟨rfl, rfl⟩ | htail, hs⟩
      · exact .inr (congrArg some ((append_tail "anchor." a ".right").trans hs.symm))
      · exact .inl (hindex.2 ⟨rest, htail, hs⟩)
  | literal v => exact absurd rfl (hsource v)

theorem named_iff {source : Source} (hsource : ∀ v, source ≠ literal v) :
    source.Named ↔ isName source.place.2 = true := by
  cases source with
  | literal v => exact absurd rfl (hsource v)
  | _ => exact Iff.rfl

/-- What spells a source other than a literal is what the reader of trimmed characters reads as
it. -/
theorem spelled_iff {source : Source} (hsource : ∀ v, source ≠ literal v) (s : String) :
    source.Spelled s ↔ ofChars? (Text.trimChars s.toList) = some source := by
  have hspelled : source.Spelled s ↔ source.Named ∧
      ((∃ zeros, Text.trim s = source.padded zeros) ∨ source.short? = some (Text.trim s)) := by
    cases source with
    | literal v => exact absurd rfl (hsource v)
    | _ => exact Iff.rfl
  have hchars (rest : List Char) :
      Text.trim s = source.place.1 ++ (source.place.2 ++ String.ofList rest) ↔
        Text.trimChars s.toList = source.place.1.toList ++ (source.place.2.toList ++ rest) := by
    rw [← String.toList_inj, String.toList_append, String.toList_append, Text.trim,
      String.toList_ofList, String.toList_ofList]
  rw [hspelled, named_iff hsource, spells_iff hsource, ofChars?_eq_some_iff]
  simp only [hchars]

/-- No other source is spelled like a literal. -/
theorem ofChars?_literal (value : List Char) :
    ofChars? (Text.trimChars ("literal:".toList ++ value)) = none := by
  have hblank : Text.isBlank 'l' = false := by decide
  obtain ⟨cs, hcs⟩ := Text.trimChars_cons hblank ("iteral:".toList ++ value)
  have hlist : "literal:".toList ++ value = 'l' :: ("iteral:".toList ++ value) := rfl
  rw [hlist, hcs]
  rfl

/-- A text is read as a source just when it spells it. -/
theorem parse?_eq_some_iff (s : String) (source : Source) :
    parse? s = some source ↔ source.Spelled s := by
  have hliteral (v : String) :
      after? "literal:" s.toList = some v.toList ↔ s = "literal:" ++ v := by
    rw [after?_eq_some_iff, ← String.toList_append, String.toList_inj]
  rw [parse?]
  cases hafter : after? "literal:" s.toList with
  | some value =>
    rw [← String.toList_ofList (l := value), hliteral] at hafter
    by_cases hsource : ∃ v, source = literal v
    · obtain ⟨v, rfl⟩ := hsource
      rw [Spelled, hafter, String.append_right_inj, Option.some.injEq, literal.injEq]
    · have hother : ∀ v, source ≠ literal v := fun v hv => hsource ⟨v, hv⟩
      rw [spelled_iff hother, hafter, String.toList_append, ofChars?_literal]
      simp only [Option.some.injEq, reduceCtorEq, iff_false]
      exact (hother _).symm
  | none =>
    by_cases hsource : ∃ v, source = literal v
    · obtain ⟨v, rfl⟩ := hsource
      rw [Spelled, ← hliteral, hafter]
      constructor
      · intro h
        obtain ⟨-, rest, htail, -⟩ := ofChars?_eq_some_iff.1 h
        exact htail.elim
      · intro h
        cases h
    · exact (spelled_iff (fun v hv => hsource ⟨v, hv⟩) s).symm

/-! ### Spelling and reading -/

theorem not_isBlank_of_all {word : String}
    (h : word.toList.all (fun c => !Text.isBlank c) = true) :
    ∀ c ∈ word.toList, Text.isBlank c = false := by
  intro c hc
  simpa using List.all_eq_true.1 h c hc

theorem not_isBlank_of_mem_indexChars (zeros index : Nat) :
    ∀ c ∈ indexChars zeros index, Text.isBlank c = false := by
  have hopen : Text.isBlank '[' = false := rfl
  have hclose : Text.isBlank ']' = false := rfl
  refine List.forall_mem_cons.2 ⟨hopen, List.forall_mem_append.2
    ⟨fun c hc => ?_, List.forall_mem_singleton.2 hclose⟩⟩
  have hdigit := isDigit_of_mem_padded zeros index c hc
  exact not_isBlank_of_isNameChar (by simp [isNameChar, Char.isAlphanum, hdigit])

theorem not_isBlank_of_tail {source : Source} {rest : List Char} (h : source.Tail rest) :
    ∀ c ∈ rest, Text.isBlank c = false := by
  cases source with
  | anchorText | regionText =>
    rcases h with rfl | rfl
    · exact List.forall_mem_nil _
    · exact not_isBlank_of_all (by decide)
  | anchorRight a i =>
    obtain ⟨-, rfl⟩ | ⟨zeros, rfl⟩ := h
    · exact not_isBlank_of_all (by decide)
    · exact List.forall_mem_append.2
        ⟨not_isBlank_of_all (by decide), not_isBlank_of_mem_indexChars zeros i⟩
  | anchorNext | regionRows =>
    cases h
    exact not_isBlank_of_all (by decide)
  | regionColumn r i =>
    obtain ⟨zeros, rfl⟩ := h
    exact List.forall_mem_append.2
      ⟨not_isBlank_of_all (by decide), not_isBlank_of_mem_indexChars zeros i⟩
  | literal => cases h

/-- A source is spelled by its own text. -/
theorem spelled_text {source : Source} (hsource : source.Named) : source.Spelled source.text := by
  by_cases hliteral : ∃ v, source = literal v
  · obtain ⟨v, rfl⟩ := hliteral
    rfl
  · have hother : ∀ v, source ≠ literal v := fun v hv => hliteral ⟨v, hv⟩
    obtain ⟨rest, htail, htext⟩ := (spells_iff hother _).1 (.inl ⟨0, (padded_zero source).symm⟩)
    have hname := (named_iff hother).1 hsource
    -- No character of the text is blank, so that trimming leaves it as it is.
    have hplain : ∀ c ∈ source.text.toList, Text.isBlank c = false := by
      have hword : ∀ c ∈ source.place.1.toList, Text.isBlank c = false := by
        rcases place_of_tail htail with h | h <;> rw [h] <;> exact not_isBlank_of_all (by decide)
      rw [htext, String.toList_append, String.toList_append, String.toList_ofList]
      exact List.forall_mem_append.2 ⟨hword, List.forall_mem_append.2
        ⟨fun c hc => not_isBlank_of_isNameChar (isNameChar_of_isName hname hc),
          not_isBlank_of_tail htail⟩⟩
    rw [spelled_iff hother, ofChars?_eq_some_iff, Text.trimChars_eq_self
      ⟨fun c hc => hplain c (List.mem_of_mem_head? hc),
        fun c hc => hplain c (List.mem_of_getLast? hc)⟩]
    refine ⟨hname, rest, htail, ?_⟩
    rw [htext, String.toList_append, String.toList_append, String.toList_ofList]

/-- A source is read back from its text, whatever it names. A text is read as a source just when it
spells it, and what spells no source is refused. -/
theorem parse_spelled :
    (∀ source : Source, source.Named → parse? source.text = some source) ∧
    (∀ s source, parse? s = some source ↔ source.Spelled s) ∧
    ∀ s, parse? s = none ↔ ∀ source : Source, ¬ source.Spelled s := by
  refine ⟨fun source hsource => ?_, parse?_eq_some_iff, fun s => ?_⟩
  · exact (parse?_eq_some_iff _ _).2 (spelled_text hsource)
  · rw [Option.eq_none_iff_forall_ne_some]
    exact forall_congr' fun source => not_congr (parse?_eq_some_iff s source)

-- An anchor that has the name of what is taken of it.
theorem parse_spelled_right :
    (anchorRight "right" 12).Named ∧ (anchorRight "right" 12).text = "anchor.right.right[12]" ∧
      parse? "anchor.right.right[12]" = some (anchorRight "right" 12) := by
  have hnamed : (anchorRight "right" 12).Named := rfl
  have htext : (anchorRight "right" 12).text = "anchor.right.right[12]" := by decide
  exact ⟨hnamed, htext, htext ▸ parse_spelled.1 (anchorRight "right" 12) hnamed⟩

end Source

end PageExtract
