/-
Chains of blocks.

Where the words of an anchor lie in different blocks, each chain of such blocks goes on with the
nearest block that it can go on with. A chain is made up of different blocks of one page, and the
block that it is joined to lies around all of them.

* `Box.Encloses`, `Box.around_spec` — boxes around boxes;
* `Layout.IsNext`, `IsNearest`, `exists_of_chainFrom?_cons` — one step of a chain;
* `Layout.IsChain`, `isChain_of_chainFrom?` — a whole chain;
* `Block.JoinedFrom`, `joinedFrom_joinChain` — the block that a chain is joined to;
* `proximityMatches_chains` — the blocks that a search finds come from chains.
-/
import Mathlib.Data.List.Nodup
import PageExtract.Anchor.Proximity
import PageExtract.Proofs.Layout.Accepted
import PageExtract.Proofs.Number.Order
import PageExtract.Proofs.Table.Headers

namespace PageExtract

/-! ### Boxes around boxes -/

/-- Whether a box lies around another one of its page. -/
structure Box.Encloses (b c : Box Float) : Prop where
  page : (c.page == b.page) = true
  left : b.x0 ≤ c.x0
  top : b.y0 ≤ c.y0
  right : c.x1 ≤ b.x1
  bottom : c.y1 ≤ b.y1

/-- The box around boxes inside the unit square lies inside it, and around each of them. -/
theorem Box.around_spec {first : Box Float} {more : List (Box Float)}
    (h : ∀ b ∈ first :: more, b.InUnit)
    (hpage : ∀ b ∈ first :: more, (b.page == first.page) = true) :
    (first.around more).InUnit ∧ ∀ b ∈ first :: more, (first.around more).Encloses b := by
  obtain ⟨⟨hleft, hacross, hright⟩, hx⟩ :=
    Double.unit_stretch fun b hb => ⟨(h b hb).left, (h b hb).across, (h b hb).right⟩
  obtain ⟨⟨htop, hdown, hbottom⟩, hy⟩ :=
    Double.unit_stretch fun b hb => ⟨(h b hb).top, (h b hb).down, (h b hb).bottom⟩
  refine ⟨⟨hleft, hacross, hright, htop, hdown, hbottom⟩, fun b hb => ?_⟩
  exact ⟨hpage b hb, (hx b hb).1, (hy b hb).1, (hx b hb).2, (hy b hb).2⟩

/-! ### One step -/

/-- Whether a chain at `prev` goes on with `next` for a word, if `earlier` holds the blocks of the
chain so far: the block is near enough, and none that the chain could go on with is nearer. -/
structure Layout.IsNext (l : Layout Float) (threshold : Float) (earlier : List (Block Float))
    (prev : Block Float) (word : String) (next : Block Float) : Prop where
  mem : next ∈ l.holding word
  fresh : next ∉ earlier
  page : (next.box.page == prev.box.page) = true
  near : cornerDistance prev next < threshold
  nearest : ∀ b ∈ l.holding word, (b.box.page == prev.box.page) = true → b ∉ earlier →
    ¬ cornerDistance prev b < cornerDistance prev next

section

variable {prev : Block Float} {used : List (Block Float)} {best : Float}
  {found : Option (Block Float)} {c d : Block Float} {cs : List (Block Float)}

/-- Whether a block may follow another one in a chain. -/
def MayFollow (prev : Block Float) (used : List (Block Float)) (b : Block Float) : Prop :=
  b.isAmong used = false ∧ (b.box.page == prev.box.page) = true

/-- What the search among some candidates ends with: the block that was found before, if none is
nearer than `best`, or else a candidate that is nearer than `best` and than which none is nearer. -/
def IsNearest (prev : Block Float) (used : List (Block Float)) (best : Float)
    (found : Option (Block Float)) (cs : List (Block Float)) (c : Block Float) : Prop :=
  (found = some c ∧ ∀ b ∈ cs, MayFollow prev used b → ¬ cornerDistance prev b < best) ∨
    (c ∈ cs ∧ MayFollow prev used c ∧ cornerDistance prev c < best ∧
      ∀ b ∈ cs, MayFollow prev used b → ¬ cornerDistance prev b < cornerDistance prev c)

/-- A candidate that may not follow, or is not nearer than `best`, changes nothing. -/
theorem IsNearest.pass (hworse : MayFollow prev used d → ¬ cornerDistance prev d < best)
    (h : IsNearest prev used best found cs c) : IsNearest prev used best found (d :: cs) c := by
  obtain ⟨hfound, hnone⟩ | ⟨hc, hfollows, hnear, hleast⟩ := h
  · exact .inl ⟨hfound, List.forall_mem_cons.2 ⟨hworse, hnone⟩⟩
  · refine .inr ⟨List.mem_cons_of_mem d hc, hfollows, hnear, List.forall_mem_cons.2 ⟨?_, hleast⟩⟩
    intro hd hlt
    exact hworse hd (Double.lt_trans hlt hnear)

/-- A candidate that is nearer than `best` is the one that the others have to beat. -/
theorem IsNearest.closer (hfollow : MayFollow prev used d) (hcloser : cornerDistance prev d < best)
    (h : IsNearest prev used (cornerDistance prev d) (some d) cs c) :
    IsNearest prev used best found (d :: cs) c := by
  obtain ⟨hfound, hnone⟩ | ⟨hc, hfollows, hnear, hleast⟩ := h
  · obtain rfl := Option.some_inj.1 hfound
    exact .inr ⟨List.mem_cons_self, hfollow, hcloser,
      List.forall_mem_cons.2 ⟨fun _ => Double.lt_irrefl _, hnone⟩⟩
  · refine .inr ⟨List.mem_cons_of_mem d hc, hfollows, Double.lt_trans hnear hcloser,
      List.forall_mem_cons.2 ⟨?_, hleast⟩⟩
    intro _ hlt
    exact Double.lt_irrefl _ (Double.lt_trans hlt hnear)

theorem isNearest_of_nearest? (h : nearest? prev used best found cs = some c) :
    IsNearest prev used best found cs c := by
  induction cs generalizing best found with
  | nil => exact .inl ⟨h, List.forall_mem_nil _⟩
  | cons d cs ih =>
    rw [nearest?] at h
    split at h
    · rename_i hskip
      refine .pass (fun hfollow => ?_) (ih h)
      rw [hfollow.1, hfollow.2] at hskip
      cases hskip
    · rename_i hskip
      have hfollow : MayFollow prev used d := by
        rw [Bool.or_eq_true, not_or, Bool.not_eq_true, Bool.not_eq_true', Bool.not_eq_false]
          at hskip
        exact hskip
      split at h
      · exact .closer hfollow ‹_› (ih h)
      · exact .pass (fun _ => ‹_›) (ih h)

end

section

variable {l : Layout Float} (hids : (l.blocks.map (·.id)).Nodup)

include hids

omit hids in
theorem Layout.mem_blocks_of_holding {b : Block Float} {word : String} (hb : b ∈ l.holding word) :
    b ∈ l.blocks :=
  (List.mem_filter.1 hb).1

/-- Blocks of a layout are told apart by their ids. -/
theorem Layout.isAmong_iff_mem {b : Block Float} {bs : List (Block Float)} (hb : b ∈ l.blocks)
    (hbs : bs ⊆ l.blocks) : b.isAmong bs = true ↔ b ∈ bs := by
  rw [Block.isAmong_iff]
  constructor
  · rintro ⟨c, hc, hid⟩
    exact List.inj_on_of_nodup_map hids (hbs hc) hb hid ▸ hc
  · intro hmem
    exact ⟨b, hmem, rfl⟩

variable {threshold : Float} {prev : Block Float} {used : List (Block Float)}
  (hused : used ⊆ l.blocks)

include hused

/-- A chain takes its words one by one. -/
theorem exists_of_chainFrom?_cons {word : String} {words : List String} {rest : List (Block Float)}
    (h : chainFrom? threshold prev used ((word :: words).map l.holding) = some rest) :
    ∃ next more, rest = next :: more ∧ l.IsNext threshold used prev word next ∧
      chainFrom? threshold next (next :: used) (words.map l.holding) = some more := by
  rw [List.map_cons, chainFrom?] at h
  cases hnearest : nearest? prev used threshold none (l.holding word) with
  | none =>
    rw [hnearest] at h
    cases h
  | some next =>
    rw [hnearest] at h
    obtain ⟨more, hmore, rfl⟩ := Option.map_eq_some_iff.1 h
    obtain ⟨hnone, -⟩ | ⟨hmem, ⟨hfresh, hpage⟩, hnear, hleast⟩ :=
      isNearest_of_nearest? hnearest
    · cases hnone
    · have hblock : ∀ {b}, b ∈ l.holding word → (b.isAmong used = false ↔ b ∉ used) := by
        intro b hb
        rw [← Bool.not_eq_true, Layout.isAmong_iff_mem hids (l.mem_blocks_of_holding hb) hused]
      refine ⟨next, more, rfl, ⟨hmem, (hblock hmem).1 hfresh, hpage, hnear, ?_⟩, hmore⟩
      intro b hb hpage hnew
      exact hleast b hb ⟨(hblock hb).2 hnew, hpage⟩

/-! ### A whole chain -/

/-- A chain is made up of blocks that hold the words, that differ from each other and from those
that are used, and that lie on one page. -/
theorem chainFrom?_blocks {words : List String} {rest : List (Block Float)}
    (h : chainFrom? threshold prev used (words.map l.holding) = some rest) :
    List.Forall₂ (fun b word => b ∈ l.holding word) rest words ∧
      (∀ b ∈ rest, b ∉ used) ∧ rest.Nodup ∧
      ∀ b ∈ rest, (b.box.page == prev.box.page) = true := by
  induction words generalizing prev used rest with
  | nil =>
    obtain rfl := Option.some_inj.1 h
    have hnone : ∀ {p : Block Float → Prop}, ∀ b ∈ ([] : List (Block Float)), p b :=
      List.forall_mem_nil _
    exact ⟨.nil, hnone, List.nodup_nil, hnone⟩
  | cons word words ih =>
    obtain ⟨next, more, rfl, hnext, hmore⟩ := exists_of_chainFrom?_cons hids hused h
    obtain ⟨hholds, hfresh, hdistinct, hpage⟩ :=
      ih (List.cons_subset.2 ⟨l.mem_blocks_of_holding hnext.mem, hused⟩) hmore
    refine ⟨.cons hnext.mem hholds, ?_, ?_, ?_⟩
    · exact List.forall_mem_cons.2
        ⟨hnext.fresh, fun b hb hmem => hfresh b hb (List.mem_cons_of_mem next hmem)⟩
    · exact List.nodup_cons.2 ⟨fun hmem => hfresh next hmem List.mem_cons_self, hdistinct⟩
    · refine List.forall_mem_cons.2 ⟨hnext.page, fun b hb => ?_⟩
      rw [← Double.beq_congr hnext.page]
      exact hpage b hb

omit hused in
/-- Each block of a chain is the next one after those before it. -/
theorem isNext_of_chainFrom? {older : List (Block Float)} (hused : prev :: older ⊆ l.blocks)
    {words : List String} {rest : List (Block Float)}
    (h : chainFrom? threshold prev (prev :: older) (words.map l.holding) = some rest)
    {before : List (Block Float)} {b next : Block Float} {after : List (Block Float)}
    {word : String} (hsplit : prev :: rest = before ++ b :: next :: after)
    (hword : words[before.length]? = some word) :
    l.IsNext threshold (b :: (before.reverse ++ older)) b word next := by
  induction before generalizing prev older words rest with
  | nil =>
    obtain ⟨rfl, rfl⟩ := List.cons.inj hsplit
    cases words with
    | nil => cases hword
    | cons word' words =>
      obtain rfl := Option.some_inj.1 hword
      obtain ⟨next', more, hsame, hnext, -⟩ := exists_of_chainFrom?_cons hids hused h
      obtain ⟨rfl, -⟩ := List.cons.inj hsame
      exact hnext
  | cons x before ih =>
    obtain ⟨rfl, rfl⟩ := List.cons.inj hsplit
    cases words with
    | nil => cases hword
    | cons word' words =>
      obtain ⟨next', more, hsame, hnext, hmore⟩ := exists_of_chainFrom?_cons hids hused h
      have hused' := List.cons_subset.2 ⟨l.mem_blocks_of_holding hnext.mem, hused⟩
      have hrest := ih hused' hmore hsame.symm hword
      rw [List.reverse_cons, List.append_assoc]
      exact hrest

end

/-- A chain of blocks for some words: different blocks of one page that hold the words in order,
each of them the next one for its word after the blocks before it. -/
structure Layout.IsChain (l : Layout Float) (threshold : Float) (words : List String)
    (chain : List (Block Float)) : Prop where
  holds : List.Forall₂ (fun b word => b ∈ l.holding word) chain words
  distinct : chain.Nodup
  onePage : ∀ b ∈ chain, ∀ c ∈ chain, (b.box.page == c.box.page) = true
  next : ∀ {before prev next after word}, chain = before ++ prev :: next :: after →
    words[before.length + 1]? = some word →
    l.IsNext threshold (prev :: before.reverse) prev word next

section

variable {l : Layout Float} (hids : (l.blocks.map (·.id)).Nodup) {threshold : Float}
  {word second : String} {words : List String}

include hids

/-- What is found after a first block makes up a chain with it. -/
theorem isChain_of_chainFrom? {first : Block Float} (hfirst : first ∈ l.holding word)
    {rest : List (Block Float)}
    (h : chainFrom? threshold first [first] ((second :: words).map l.holding) = some rest) :
    l.IsChain threshold (word :: second :: words) (first :: rest) := by
  have hused : [first] ⊆ l.blocks :=
    List.cons_subset.2 ⟨l.mem_blocks_of_holding hfirst, List.nil_subset _⟩
  obtain ⟨hholds, hfresh, hdistinct, hpage⟩ := chainFrom?_blocks hids hused h
  -- There is a second block, whose page is that of the first, so that the page of the first block
  -- is a number.
  obtain ⟨c, more, rfl, hnext, -⟩ := exists_of_chainFrom?_cons hids hused h
  have hself : (first.box.page == first.box.page) = true := by
    rw [← Double.beq_congr hnext.page, Double.beq_comm]
    exact hnext.page
  have hpages : ∀ b ∈ first :: c :: more, (b.box.page == first.box.page) = true :=
    List.forall_mem_cons.2 ⟨hself, hpage⟩
  constructor
  · exact .cons hfirst hholds
  · exact List.nodup_cons.2 ⟨fun hmem => hfresh first hmem List.mem_cons_self, hdistinct⟩
  · intro b hb d hd
    rw [Double.beq_congr (hpages d hd)]
    exact hpages b hb
  · intro before prev next after word' hsplit hword
    have hstep := isNext_of_chainFrom? hids hused h hsplit hword
    rwa [List.append_nil] at hstep

end

/-! ### The block of a chain -/

/-- Whether a block is what a chain is joined to: its text is the texts of the chain with spaces
between them, its box lies around the boxes of the chain, if these lie in the unit square, and its
confidence is the least of the chain, if these are numbers. -/
structure Block.JoinedFrom (b : Block Float) (chain : List (Block Float)) : Prop where
  text : b.text = " ".intercalate (chain.map (·.text))
  box : (∀ c ∈ chain, c.box.InUnit) → b.box.InUnit ∧ ∀ c ∈ chain, b.box.Encloses c.box
  confidence : (∀ c ∈ chain, c.confidence ≤ c.confidence) →
    (∃ c ∈ chain, c.confidence = b.confidence) ∧ ∀ c ∈ chain, b.confidence ≤ c.confidence

theorem joinedFrom_joinChain {first : Block Float} {more : List (Block Float)}
    (hpage : ∀ b ∈ first :: more, (b.box.page == first.box.page) = true) :
    (joinChain first more).JoinedFrom (first :: more) where
  text := rfl
  box := by
    intro hunit
    have hboxes : ∀ box ∈ (first :: more).map (·.box), box.InUnit := List.forall_mem_map.2 hunit
    have hpages : ∀ box ∈ (first :: more).map (·.box), (box.page == first.box.page) = true :=
      List.forall_mem_map.2 hpage
    obtain ⟨hinside, haround⟩ := Box.around_spec hboxes hpages
    exact ⟨hinside, fun c hc => haround c.box (List.mem_map_of_mem hc)⟩
  confidence := Double.least_map_spec

/-! ### All chains -/

section

variable {l : Layout Float} (hids : (l.blocks.map (·.id)).Nodup) (threshold : Float)
  {word : String} (second : String) (words : List String)

include hids

/-- The blocks that are found from some first blocks come from chains that begin with these. -/
theorem exists_chains_chainsFrom {starts : List (Block Float)} (hstarts : starts ⊆ l.holding word) :
    ∃ chains, List.Forall₂
        (fun b chain => l.IsChain threshold (word :: second :: words) chain ∧ b.JoinedFrom chain)
        (chainsFrom threshold ((second :: words).map l.holding) starts) chains ∧
      (chains.map List.head?).Sublist (starts.map some) ∧
      ((chainsFrom threshold ((second :: words).map l.holding) starts).map (·.id)).Sublist
        (starts.map fun b => "proximity_" ++ b.id) := by
  induction starts with
  | nil => exact ⟨[], .nil, .slnil, .slnil⟩
  | cons first starts ih =>
    obtain ⟨hfirst, hrest⟩ := List.cons_subset.1 hstarts
    obtain ⟨chains, hchains, hheads, hnames⟩ := ih hrest
    cases hchain : chainFrom? threshold first [first] ((second :: words).map l.holding) with
    | none =>
      have hskip : chainsFrom threshold ((second :: words).map l.holding) (first :: starts) =
          chainsFrom threshold ((second :: words).map l.holding) starts := by
        rw [chainsFrom, List.filterMap_cons, hchain]
        rfl
      rw [hskip]
      exact ⟨chains, hchains, hheads.cons _, hnames.cons _⟩
    | some more =>
      have hjoin : chainsFrom threshold ((second :: words).map l.holding) (first :: starts) =
          joinChain first more ::
            chainsFrom threshold ((second :: words).map l.holding) starts := by
        rw [chainsFrom, List.filterMap_cons, hchain]
        rfl
      have his := isChain_of_chainFrom? hids hfirst hchain
      have hjoined := joinedFrom_joinChain fun b hb => his.onePage b hb first List.mem_cons_self
      rw [hjoin]
      exact ⟨(first :: more) :: chains, .cons ⟨his, hjoined⟩ hchains, hheads.cons_cons _,
        hnames.cons_cons _⟩

end

/-- The blocks that the words of a pattern make up come from chains of blocks, at most one for each
block that a chain can begin with, in the order of the document, and they have different ids. -/
theorem proximityMatches_chains {l : Layout Float} (hids : (l.blocks.map (·.id)).Nodup)
    (pattern : String) (threshold : Float) :
    ∃ chains, List.Forall₂
        (fun b chain => l.IsChain threshold (patternWords pattern) chain ∧ b.JoinedFrom chain)
        (proximityMatches l pattern threshold) chains ∧
      (chains.map List.head?).Sublist (l.blocks.map some) ∧
      ((proximityMatches l pattern threshold).map (·.id)).Nodup := by
  unfold proximityMatches
  split
  · rename_i first second words hwords
    obtain ⟨chains, hchains, hheads, hnames⟩ :=
      exists_chains_chainsFrom hids threshold second words (List.Subset.refl (l.holding first))
    have hsub : (l.holding first).Sublist l.blocks := List.filter_sublist
    refine ⟨chains, ?_, hheads.trans (hsub.map some), ?_⟩
    · rw [hwords]
      exact hchains
    · have hprefixed : ((l.blocks.map (·.id)).map ("proximity_" ++ ·)).Nodup :=
        hids.map fun s t hst => (String.append_right_inj _).1 hst
      rw [List.map_map] at hprefixed
      exact (hnames.trans (hsub.map _)).nodup hprefixed
  · exact ⟨[], .nil, List.nil_sublist _, List.nodup_nil⟩

/-- A block of a line of text, from its left edge to its right edge. -/
def wordBlock (id text : String) (left right : Float) : Block Float :=
  ⟨id, text, ⟨left, 0.1, right, 0.12, 0.0⟩, 90.0, none, false, .text⟩

/-- A line that says "final" and "score" twice, the second time in one block. -/
def scoreLine : Layout Float :=
  ⟨none, 1.0, [(612.0, 792.0)],
    [wordBlock "a" "Final" 0.1 0.2, wordBlock "b" "Score" 0.21 0.3,
      wordBlock "c" "final score:" 0.31 0.4],
    "", none⟩

/-- The block that holds both words may begin a chain, but it does not follow itself. -/
theorem proximityMatches_chains_scoreLine :
    (proximityMatches scoreLine "Final score" 0.5).map (·.text) =
        ["Final Score", "final score: Score"] ∧
      (scoreLine.blocks.map (·.id)).Nodup ∧
      ∃ chains, List.Forall₂
          (fun b chain =>
            scoreLine.IsChain 0.5 (patternWords "Final score") chain ∧ b.JoinedFrom chain)
          (proximityMatches scoreLine "Final score" 0.5) chains ∧
        (chains.map List.head?).Sublist (scoreLine.blocks.map some) ∧
        ((proximityMatches scoreLine "Final score" 0.5).map (·.id)).Nodup := by
  have hids : (scoreLine.blocks.map (·.id)).Nodup := by decide
  exact ⟨by decide +kernel, hids, proximityMatches_chains hids "Final score" 0.5⟩

end PageExtract
