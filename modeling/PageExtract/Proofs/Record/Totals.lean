/-
Sums as totals over leaves.

A sum follows its path through all records at once. As long as each of these has records under the
next name, the numbers that it adds up are those of all leaves with the names of the path as their
keys, in the order of the document, and a record without the last name adds nothing. One record
without a name before the last one ends the sum: it is zero then, whatever the others hold, and
there is a remark.

* `Record.Reaches`, `Record.Lacks` — the records on the way, and one without records under the next
  name;
* `Record.lacks_zero`, `Record.lacks_succ` — the record itself, and those one level below;
* `Record.collectFrom_of_lacks`, `Record.collectFrom_of_not_lacks` — what is missing, and what is
  collected if nothing is;
* `Formula.sumPath_leaves` — the value of a sum;
* `Formula.sumPath_ragged` — a sum that a single record brings to zero.
-/
import Mathlib.Data.List.ReduceOption
import PageExtract.Proofs.Record.Leaves
import PageExtract.Proofs.Rule.Gather

namespace PageExtract

variable {ν : Type}

namespace Record

/-! ### Records on the way -/

/-- Whether some names lead from a record to another one. -/
def Reaches (r : Record ν) (names : List String) (r' : Record ν) : Prop :=
  ∃ a, Trail.keys a = names ∧ (Node.map r).at? a = some (.map r')

theorem reaches_nil {r r' : Record ν} : r.Reaches [] r' ↔ r' = r := by
  constructor
  · rintro ⟨a, hkeys, hat⟩
    rcases a with _ | ⟨⟨key⟩ | ⟨i⟩, a⟩
    · cases hat
      rfl
    · cases hkeys
    · cases hat
  · rintro rfl
    exact ⟨[], rfl, rfl⟩

/-- The first name leads to the records one level below. -/
theorem reaches_cons {r r' : Record ν} {name : String} {names : List String} :
    r.Reaches (name :: names) r' ↔ ∃ c ∈ (children r name).getD [], c.Reaches names r' := by
  constructor
  · rintro ⟨a, hkeys, hat⟩
    rcases a with _ | ⟨⟨key⟩ | ⟨i⟩, a⟩
    · cases hkeys
    · obtain ⟨rfl, hrest⟩ := List.cons.inj hkeys
      rw [Node.at?_map_key] at hat
      obtain ⟨n, hn, hat⟩ := Option.bind_eq_some_iff.1 hat
      rw [children, hn]
      cases n with
      | scalar v => cases a <;> cases hat
      | list vs => cases a <;> cases hat
      | map entries => exact ⟨entries, List.mem_singleton_self entries, a, hrest, hat⟩
      | sequence rs =>
        rcases a with _ | ⟨⟨key'⟩ | ⟨i⟩, a⟩
        · cases hat
        · cases hat
        · rw [Node.at?_sequence_index] at hat
          obtain ⟨c, hc, hat⟩ := Option.bind_eq_some_iff.1 hat
          exact ⟨c, List.mem_of_getElem? hc, a, hrest, hat⟩
    · cases hat
  · rintro ⟨c, hc, a, hkeys, hat⟩
    unfold children at hc
    split at hc
    · rename_i entries hget
      obtain rfl := List.mem_singleton.1 hc
      refine ⟨.key name :: a, congrArg (name :: ·) hkeys, ?_⟩
      rw [Node.at?_map_key, hget]
      exact hat
    · rename_i rs hget
      obtain ⟨i, hi⟩ := List.mem_iff_getElem?.1 hc
      refine ⟨.key name :: .index i :: a, congrArg (name :: ·) hkeys, ?_⟩
      rw [Option.getD_some] at hi
      rw [Node.at?_map_key, hget, Option.bind_some, Node.at?_sequence_index, hi]
      exact hat
    · cases hc

/-! ### What is missing -/

/-- Whether some record to which the first `k` of some names lead has neither a record nor a sequence
under the next one. -/
def Lacks (r : Record ν) (names : List String) (k : Nat) : Prop :=
  ∃ r' name, r.Reaches (names.take k) r' ∧ names[k]? = some name ∧ children r' name = none

variable {r : Record ν} {rs : List (Record ν)} {name : String} {names : List String} {k : Nat}

theorem lacks_zero : r.Lacks (name :: names) 0 ↔ children r name = none := by
  constructor
  · rintro ⟨r', name', hreaches, hname, hnone⟩
    obtain rfl := reaches_nil.1 hreaches
    cases hname
    exact hnone
  · exact fun h => ⟨r, name, reaches_nil.2 rfl, rfl, h⟩

/-- What is missing further below is missing one level below. -/
theorem lacks_succ :
    r.Lacks (name :: names) (k + 1) ↔ ∃ c ∈ (children r name).getD [], c.Lacks names k := by
  constructor
  · rintro ⟨r', name', hreaches, hname, hnone⟩
    obtain ⟨c, hc, hreaches⟩ := reaches_cons.1 hreaches
    exact ⟨c, hc, r', name', hreaches, hname, hnone⟩
  · rintro ⟨c, hc, r', name', hreaches, hname, hnone⟩
    exact ⟨r', name', reaches_cons.2 ⟨c, hc, hreaches⟩, hname, hnone⟩

theorem not_lacks_nil : ¬ r.Lacks [] k := by
  rintro ⟨r', name', -, hname, -⟩
  cases hname

instance decidableLacks (names : List String) (k : Nat) (r : Record ν) :
    Decidable (r.Lacks names k) :=
  match names, k with
  | [], _ => .isFalse not_lacks_nil
  | name :: _, 0 => decidable_of_iff ((children r name).isNone = true)
      (Option.isNone_iff_eq_none.trans lacks_zero.symm)
  | name :: names, k + 1 =>
    have : ∀ c : Record ν, Decidable (c.Lacks names k) := decidableLacks names k
    decidable_of_iff (∃ c ∈ (children r name).getD [], c.Lacks names k) lacks_succ.symm

/-- The records below a name, if none is missing. -/
theorem recordsBelow_of_not_lacks (h : ∀ r ∈ rs, ¬ r.Lacks (name :: names) 0) :
    recordsBelow name rs = some (rs.flatMap fun r => (children r name).getD []) := by
  refine recordsBelow_of_children fun r hr => Option.isSome_iff_exists.1 ?_
  rw [Option.isSome_iff_ne_none]
  exact fun hnone => h r hr (lacks_zero.2 hnone)

theorem recordsBelow_of_lacks (h : ∃ r ∈ rs, r.Lacks (name :: names) 0) :
    recordsBelow name rs = none := by
  obtain ⟨r, hr, hlacks⟩ := h
  have hnone := lacks_zero.1 hlacks
  induction rs with
  | nil => cases hr
  | cons r' rs ih =>
    rw [recordsBelow_cons]
    obtain rfl | hr := List.mem_cons.1 hr
    · rw [hnone, Option.bind_none]
    · rw [ih hr]
      cases children r' name <;> rfl

/-- A property of the records one level below. -/
theorem lacks_succ_of_flatMap :
    (∃ r ∈ rs, r.Lacks (name :: names) (k + 1)) ↔
      ∃ c ∈ rs.flatMap fun r => (children r name).getD [], c.Lacks names k := by
  simp only [lacks_succ, List.mem_flatMap]
  constructor
  · rintro ⟨r, hr, c, hc, h⟩
    exact ⟨c, ⟨r, hr, hc⟩, h⟩
  · rintro ⟨c, ⟨r, hr, hc⟩, h⟩
    exact ⟨r, hr, c, hc, h⟩

/-- A record without records under the next name ends the collection, and the name is missing. -/
theorem collectFrom_of_lacks {p : Path} {rs : List (Record ν)} {k : Nat} (hk : k + 1 < p.length)
    (hlacks : ∃ r ∈ rs, r.Lacks p.names k) (hbefore : ∀ j < k, ∀ r ∈ rs, ¬ r.Lacks p.names j) :
    collectFrom p rs = ⟨[], p.names[k]?⟩ := by
  -- All records of one level are followed at once, and so the induction is over the path.
  induction p generalizing rs k with
  | nil => cases hk
  | cons seg p ih =>
    have hp : p ≠ [] := List.ne_nil_of_length_pos (by rw [List.length_cons] at hk; omega)
    rw [collectFrom_cons hp]
    cases k with
    | zero =>
      rw [recordsBelow_of_lacks hlacks]
      rfl
    | succ k =>
      rw [recordsBelow_of_not_lacks (hbefore 0 (Nat.succ_pos k))]
      refine ih (Nat.lt_of_succ_lt_succ hk) (lacks_succ_of_flatMap.1 hlacks) fun j hj c hc h => ?_
      obtain ⟨r, hr, hlack⟩ := lacks_succ_of_flatMap.2 ⟨c, hc, h⟩
      exact hbefore (j + 1) (Nat.succ_lt_succ hj) r hr hlack

/-! ### What is collected -/

section

variable {good : Scalar ν → Prop}

theorem Tidy.nodup (hr : r.Tidy good) : (Members.names r).Nodup := by
  cases hr with
  | map hnodup _ _ => exact hnodup

theorem Tidy.children (hr : r.Tidy good) : ∀ c ∈ (children r name).getD [], c.Tidy good := by
  unfold Record.children
  split
  · exact List.forall_mem_singleton.2 (hr.get ‹_›)
  · rename_i rs hget
    cases hr.get hget with
    | sequence hrecords => exact hrecords
  · exact List.forall_mem_nil _

/-- A field of a record holds the scalars of the leaf there, if there is one. -/
theorem reduceOption_fieldValues (hr : r.Tidy good) :
    (fieldValues name r).reduceOption = (Node.map r).scalarsUnder [name] := by
  rw [Node.scalarsUnder_map hr.nodup, fieldValues]
  cases Members.get? r name with
  | none => rfl
  | some n =>
    show _ = n.scalarsUnder []
    rw [Node.scalarsUnder_nil]
    cases n with
    | scalar v => rfl
    | list vs =>
      show (vs.map some).filterMap id = vs
      rw [List.filterMap_map]
      exact List.filterMap_some
    | map entries => rfl
    | sequence rs => rfl

/-- The scalars whose keys begin with a name are in the records below that name. -/
theorem scalarsUnder_children (hr : r.Tidy good) (h : ¬ r.Lacks (name :: names) 0) :
    (Node.map r).scalarsUnder (name :: names) =
      ((Record.children r name).getD []).flatMap fun c => (Node.map c).scalarsUnder names := by
  rw [lacks_zero] at h
  rw [Node.scalarsUnder_map hr.nodup]
  unfold Record.children at h ⊢
  split at h
  · rename_i entries hget
    rw [hget]
    exact (List.flatMap_singleton _ _).symm
  · rename_i rs hget
    rw [hget]
    exact Node.scalarsUnder_sequence rs names
  · exact (h rfl).elim

/-- If nothing is missing, the scalars that are collected are those of the leaves with the names of
the path as keys. -/
theorem collectFrom_of_not_lacks {p : Path} (hp : p ≠ []) {rs : List (Record ν)}
    (hrs : ∀ r ∈ rs, r.Tidy good)
    (h : ∀ k, k + 1 < p.length → ∀ r ∈ rs, ¬ r.Lacks p.names k) :
    (collectFrom p rs).missing = none ∧ (collectFrom p rs).values.reduceOption =
      rs.flatMap fun r => (Node.map r).scalarsUnder p.names := by
  induction p generalizing rs with
  | nil => exact (hp rfl).elim
  | cons seg p ih =>
    by_cases hlast : p = []
    · subst hlast
      refine ⟨rfl, ?_⟩
      show (rs.flatMap (fieldValues seg.name)).filterMap id = _
      rw [List.filterMap_flatMap]
      exact List.flatMap_congr fun r hr => reduceOption_fieldValues (hrs r hr)
    · have hlength : 0 + 1 < (seg :: p).length := by
        rw [List.length_cons]
        exact Nat.succ_lt_succ (List.length_pos_of_ne_nil hlast)
      have hfirst : ∀ r ∈ rs, ¬ r.Lacks (seg.name :: Path.names p) 0 := h 0 hlength
      have hbelow : ∀ c ∈ rs.flatMap fun r => (Record.children r seg.name).getD [],
          c.Tidy good := by
        intro c hc
        obtain ⟨r, hr, hc⟩ := List.mem_flatMap.1 hc
        exact (hrs r hr).children c hc
      have hrest : ∀ k, k + 1 < p.length →
          ∀ c ∈ rs.flatMap (fun r => (Record.children r seg.name).getD []),
            ¬ c.Lacks (Path.names p) k := by
        intro k hk c hc hlacks
        obtain ⟨r, hr, hlacks⟩ := lacks_succ_of_flatMap.2 ⟨c, hc, hlacks⟩
        exact h (k + 1) (Nat.succ_lt_succ hk) r hr hlacks
      rw [collectFrom_cons hlast, recordsBelow_of_not_lacks hfirst]
      obtain ⟨hmissing, hvalues⟩ := ih hlast hbelow hrest
      refine ⟨hmissing, hvalues.trans ?_⟩
      rw [List.flatMap_assoc]
      exact List.flatMap_congr fun r hr => (scalarsUnder_children (hrs r hr) (hfirst r hr)).symm

end

end Record

namespace Formula

/-- The numbers among some scalars, those that texts spell included. -/
def summands (vs : List (Scalar Float)) : List Float := vs.filterMap fun v => summand? (some v)

/-- Absent values add nothing. -/
theorem total_eq (vs : List (Option (Scalar Float))) :
    total vs = (summands vs.reduceOption).foldl (fun acc x => acc + x) 0.0 := by
  have hvalue : ∀ v, summand? v = v.bind fun s => summand? (some s) := fun v => by
    cases v <;> rfl
  unfold total summands List.reduceOption
  rw [List.filterMap_filterMap, List.foldl_filterMap]
  simp only [id_eq, ← hvalue]
  refine congrArg (fun f => vs.foldl f 0.0) (funext fun acc => funext fun v => ?_)
  cases summand? v <;> rfl

/-- The value of a sum over a path in a tree that writes have built. As long as all records to which
names of the path lead have records under the next name, down to the last but one, the numbers in all
leaves with the names of the path as keys are added up in the order of the document. If one of the
records has none, the sum is zero, and there is a remark on the first name that is missing. -/
theorem sumPath_leaves {tree : Record Float} (htree : tree.Built) {source : String} {p : Path}
    (hp : Path.parse source = .ok p) :
    ((∀ k, k + 1 < p.length → ¬ tree.Lacks p.names k) →
      (sumPath tree p).1 =
        (summands ((Node.map tree).scalarsUnder p.names)).foldl (fun acc x => acc + x) 0.0) ∧
    ∀ k name, k + 1 < p.length → p.names[k]? = some name → tree.Lacks p.names k →
      (∀ j < k, ¬ tree.Lacks p.names j) →
      sumPath tree p = (0.0, [s!"sum({source}): '{name}' not found, using 0"]) := by
  have hne := Path.ne_nil_of_parse hp
  have htidy : ∀ r ∈ [tree], r.Tidy fun _ => True := List.forall_mem_singleton.2 htree.tidy
  constructor
  · intro hnone
    obtain ⟨hmissing, hvalues⟩ := Record.collectFrom_of_not_lacks hne htidy
      fun k hk => List.forall_mem_singleton.2 (hnone k hk)
    rw [List.flatMap_singleton] at hvalues
    unfold sumPath Record.collect
    simp only
    rw [hmissing]
    simp only
    rw [total_eq, hvalues]
  · intro k name hk hname hlacks hbefore
    have hcollect := Record.collectFrom_of_lacks hk ⟨tree, List.mem_singleton_self tree, hlacks⟩
      fun j hj => List.forall_mem_singleton.2 (hbefore j hj)
    unfold sumPath Record.collect
    simp only
    rw [hcollect, hname, Path.text_of_parse hp]

/-! ### Players with and without statistics -/

/-- The path of the points of all players. -/
def pointsPath : Path := [⟨"players", true⟩, ⟨"stats", false⟩, ⟨"pts", false⟩]

/-- Three players with blocks, two of them with points. -/
def countedPlayers : Record Float :=
  let blocks : Path := [⟨"players", true⟩, ⟨"stats", false⟩, ⟨"blk", false⟩]
  let blocked := (Record.write [] blocks (.many [.num 1.0, .num 2.0, .num 5.0])).1
  (Record.write blocked pointsPath (.many [.str "3", .num 4.0])).1

/-- Two players with points, and then the names of three. The third player has no statistics. -/
def raggedPlayers : Record Float :=
  let names : Path := [⟨"players", true⟩, ⟨"name", false⟩]
  let counted := (Record.write [] pointsPath (.many [.num 3.0, .num 4.0])).1
  (Record.write counted names (.many [.str "A", .str "B", .str "C"])).1

theorem built_countedPlayers : countedPlayers.Built := by
  have hblocks : Path.parse "players[].stats.blk" =
      .ok [⟨"players", true⟩, ⟨"stats", false⟩, ⟨"blk", false⟩] := by rfl
  have hpoints : Path.parse "players[].stats.pts" = .ok pointsPath := by rfl
  exact (Record.Built.empty.write hblocks _).write hpoints _

theorem built_raggedPlayers : raggedPlayers.Built := by
  have hpoints : Path.parse "players[].stats.pts" = .ok pointsPath := by rfl
  have hnames : Path.parse "players[].name" = .ok [⟨"players", true⟩, ⟨"name", false⟩] := by rfl
  exact (Record.Built.empty.write hpoints _).write hnames _

/-- The player without points adds nothing to those of the others, and the one without statistics
brings the sum to zero. -/
theorem sumPath_leaves_players :
    (sumPath countedPlayers pointsPath).1 = 7.0 ∧
      sumPath raggedPlayers pointsPath =
        (0.0, ["sum(players[].stats.pts): 'stats' not found, using 0"]) := by
  have hpoints : Path.parse "players[].stats.pts" = .ok pointsPath := by rfl
  constructor
  · have hnone : ∀ k, k + 1 < pointsPath.length →
        ¬ countedPlayers.Lacks pointsPath.names k := by
      intro k hk
      obtain rfl | rfl : k = 0 ∨ k = 1 := by
        have hk : k + 1 < 3 := hk
        omega
      · decide +kernel
      · decide +kernel
    rw [(sumPath_leaves built_countedPlayers hpoints).1 hnone]
    decide +kernel
  · have hlacks : raggedPlayers.Lacks pointsPath.names 1 := by decide +kernel
    have hbefore : ∀ j < 1, ¬ raggedPlayers.Lacks pointsPath.names j := by decide +kernel
    exact (sumPath_leaves built_raggedPlayers hpoints).2 1 "stats" (by decide) rfl hlacks hbefore

/-- Two players have points, and their sum is zero. -/
theorem sumPath_ragged :
    raggedPlayers.Built ∧ Path.parse "players[].stats.pts" = .ok pointsPath ∧
      (Node.map raggedPlayers).scalarsUnder pointsPath.names = [.num 3.0, .num 4.0] ∧
      sumPath raggedPlayers pointsPath =
        (0.0, ["sum(players[].stats.pts): 'stats' not found, using 0"]) := by
  refine ⟨built_raggedPlayers, rfl, ?_, ?_⟩
  · decide +kernel
  · decide +kernel

end Formula

end PageExtract
