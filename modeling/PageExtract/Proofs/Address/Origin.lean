/-
Addresses below the origin of a server.

The origin of a server is a scheme, a host and perhaps a port. A path that is added to it, in
characters that addresses hold as they are, is resolved and arrives at the server.

* `Address.IsPlace`, `Address.IsOrigin` — hosts with their ports, and origins;
* `Address.splitScheme?_origin`, `Address.resolve_place` — the scheme is split off, and what follows
  it is a host and a path;
* `Address.exists_ofText` — the address of a path below an origin.
-/
import Mathlib
import PageExtract.Address.Literal

namespace PageExtract

/-! ### Letters -/

theorem Char.toLower_eq (c : Char) : c.toLower = c ∨ c.isAlpha = true := by
  unfold Char.toLower
  split
  · rename_i h
    refine .inr ?_
    simp only [Char.isAlpha, Char.isUpper, Bool.or_eq_true]
    exact .inl (by simpa using h)
  · exact .inl rfl

/-- A character whose lower case is a letter is one. -/
theorem Char.isAlpha_of_toLower {c : Char} (h : c.toLower.isAlpha = true) : c.isAlpha = true := by
  obtain heq | halpha := Char.toLower_eq c
  · rwa [heq] at h
  · exact halpha

namespace Address

/-- Whether some characters name a host and perhaps a port. -/
structure IsPlace (place : List Char) : Prop where
  chars : ∀ c ∈ place, ' ' < c ∧ endsHost c = false ∧ c ≠ '@'
  host : (writeHost? (splitPort false place).1).isSome = true
  port : (readPort? (splitPort false place).2).isSome = true

/-- Whether a text is a scheme, a host and perhaps a port, with nothing after them. -/
def IsOrigin (base : String) : Prop :=
  ∃ name place, base.toList = name ++ ':' :: '/' :: '/' :: place ∧
    (Scheme.ofName? name).isSome = true ∧ IsPlace place

/-- The name of a scheme is spelled with letters. -/
theorem isAlpha_of_ofName? {name : List Char} (h : (Scheme.ofName? name).isSome = true) :
    name ≠ [] ∧ ∀ c ∈ name, c.isAlpha = true := by
  obtain ⟨s, hs⟩ := Option.isSome_iff_exists.1 h
  have hname : s.name.toList = name.map Char.toLower := by simpa using List.find?_some hs
  have hletters : s.name.toList ≠ [] ∧ s.name.toList.all Char.isAlpha = true := by
    cases s <;> decide
  rw [hname] at hletters
  refine ⟨fun hnil => hletters.1 (by rw [hnil]; rfl), fun c hc => ?_⟩
  exact Char.isAlpha_of_toLower (List.all_eq_true.1 hletters.2 _ (List.mem_map_of_mem hc))

/-- The scheme of an origin is split off. -/
theorem splitScheme?_origin {name : List Char} (h : (Scheme.ofName? name).isSome = true)
    (rest : List Char) : splitScheme? (name ++ ':' :: rest) = some (name, rest) := by
  obtain ⟨hne, halpha⟩ := isAlpha_of_ofName? h
  have hscheme : ∀ c ∈ name, isSchemeChar c = true := fun c hc => by
    simp [isSchemeChar, Char.isAlphanum, halpha c hc]
  have htake : (name ++ ':' :: rest).takeWhile isSchemeChar = name := by
    rw [List.takeWhile_append_of_pos hscheme]
    exact List.append_nil name
  have hdrop : (name ++ ':' :: rest).dropWhile isSchemeChar = ':' :: rest :=
    List.dropWhile_append_of_pos hscheme
  cases name with
  | nil => exact absurd rfl hne
  | cons c name =>
    unfold splitScheme?
    rw [hdrop, htake]
    simp [halpha c List.mem_cons_self]

theorem IsPlace.ne_nil {place : List Char} (h : IsPlace place) : place ≠ [] := by
  rintro rfl
  have hnone : writeHost? [] = none := by cbv
  have hhost := h.host
  rw [splitPort, hnone] at hhost
  cases hhost

/-- Nothing is cut off the end of a text without blanks. -/
theorem trimEnd_of_visible {cs : List Char} (h : ∀ c ∈ cs, ' ' < c) :
    (cs.reverse.dropWhile (· ≤ ' ')).reverse = cs := by
  cases hrev : cs.reverse with
  | nil => rw [List.reverse_eq_nil_iff.1 hrev]; rfl
  | cons c more =>
    have hc : c ∈ cs := List.mem_reverse.1 (hrev ▸ List.mem_cons_self)
    have hkept : decide (c ≤ ' ') = false := by simpa using h c hc
    rw [List.dropWhile_cons, hkept, if_neg Bool.false_ne_true, ← hrev, List.reverse_reverse]

theorem isBreak_of_visible {c : Char} (h : ' ' < c) : isBreak c = false := by
  cases hc : isBreak c with
  | false => rfl
  | true =>
    simp only [isBreak, Bool.or_eq_true, beq_iff_eq] at hc
    obtain (rfl | rfl) | rfl := hc <;> exact absurd h (by decide)

/-- A text without the character is not cut at it. -/
theorem cutAtLast_of_not_mem {mark : Char} {cs : List Char} (h : mark ∉ cs) :
    Text.cutAtLast mark cs = none := by
  unfold Text.cutAtLast
  exact if_neg (by simpa using h)

/-! ### Paths -/

/-- Whether a path is written in characters that addresses hold as they are, from its first slash
on. -/
structure IsPlainPath (path : List Char) : Prop where
  head : path.head? = some '/'
  chars : ∀ c ∈ path, isTargetChar c = true ∧ c ≠ '?' ∧ c ≠ '#'

theorem visible_of_isTargetChar {c : Char} (h : isTargetChar c = true) : ' ' < c := by
  have hlow : '!' ≤ c := by
    simp only [isTargetChar, Bool.and_eq_true, decide_eq_true_eq] at h
    exact h.1.1
  exact lt_of_lt_of_le (by decide) hlow

theorem writeTarget_of_kept {cs : List Char} (h : ∀ c ∈ cs, isTargetChar c = true) :
    writeTarget cs = cs := by
  have hkept : ∀ c ∈ cs, Percent.encodeChar isTargetChar c = [c] := fun c hc => if_pos (h c hc)
  unfold writeTarget
  rw [List.flatMap_congr hkept, List.flatMap_singleton']

/-- A plain path is only resolved. -/
theorem readTarget_of_plain {path : List Char} (h : IsPlainPath path) :
    readTarget path = resolvePath path := by
  have hmeant : path.takeWhile (· != '#') = path := by
    rw [List.takeWhile_eq_self_iff]
    exact fun c hc => by simpa using (h.chars c hc).2.2
  have hquery : path.takeWhile (· != '?') = path := by
    rw [List.takeWhile_eq_self_iff]
    exact fun c hc => by simpa using (h.chars c hc).2.1
  have hnone : path.dropWhile (· != '?') = [] := by
    rw [List.dropWhile_eq_nil_iff]
    exact fun c hc => by simpa using (h.chars c hc).2.1
  have hslashes : path.map (fun c => if c = '\\' then '/' else c) = path := by
    have hkept : ∀ c ∈ path, (fun c => if c = '\\' then '/' else c) c = id c := fun c hc => by
      refine if_neg ?_
      rintro rfl
      exact absurd (h.chars _ hc).1 (by decide)
    rw [List.map_congr_left hkept, List.map_id]
  unfold readTarget
  simp only [hmeant, hquery, hnone, hslashes]
  rw [writeTarget_of_kept fun c hc => (h.chars c hc).1]
  exact List.append_nil _

variable {place path : List Char}

/-- The host and the port end where the path begins. -/
theorem cut_place (hplace : IsPlace place) (hpath : IsPlainPath path) :
    (place ++ path).takeWhile (fun c => !endsHost c) = place ∧
      (place ++ path).dropWhile (fun c => !endsHost c) = path := by
  have hinside : ∀ c ∈ place, (!endsHost c) = true := fun c hc => by
    simp [(hplace.chars c hc).2.1]
  rw [List.takeWhile_append_of_pos hinside, List.dropWhile_append_of_pos hinside]
  cases path with
  | nil => exact absurd hpath.head (by simp)
  | cons c rest =>
    obtain rfl : c = '/' := by simpa using hpath.head
    exact ⟨List.append_nil place, rfl⟩

/-- The address of a host, perhaps a port, and a plain path. -/
theorem resolve_place (scheme : Scheme) (hplace : IsPlace place) (hpath : IsPlainPath path) :
    ∃ a, resolve scheme ('/' :: '/' :: (place ++ path)) = .ok a ∧ a.user = none ∧
      a.target = String.ofList (resolvePath path) := by
  have hvisible : ∀ c ∈ '/' :: '/' :: (place ++ path), ' ' < c := by
    intro c hc
    simp only [List.mem_cons, List.mem_append] at hc
    obtain rfl | rfl | hc | hc := hc
    · decide
    · decide
    · exact (hplace.chars c hc).1
    · exact visible_of_isTargetChar (hpath.chars c hc).1
  have hseen : ('/' :: '/' :: (place ++ path)).filter (fun c => !isBreak c) =
      '/' :: '/' :: (place ++ path) :=
    List.filter_eq_self.2 fun c hc => by simp [isBreak_of_visible (hvisible c hc)]
  -- The slashes after the scheme are dropped, and the host begins with none.
  have hbody : ('/' :: '/' :: (place ++ path)).dropWhile (fun c => c == '/' || c == '\\') =
      place ++ path := by
    cases hlist : place with
    | nil => exact absurd hlist hplace.ne_nil
    | cons c more =>
      have hc : endsHost c = false := (hplace.chars c (hlist ▸ List.mem_cons_self)).2.1
      simp only [endsHost, Bool.or_eq_false_iff] at hc
      simp [hc.1.1.1, hc.1.1.2]
  obtain ⟨htake, hdrop⟩ := cut_place hplace hpath
  have huser : Text.cutAtLast '@' place = none :=
    cutAtLast_of_not_mem fun h => (hplace.chars _ h).2.2 rfl
  obtain ⟨host, hhost⟩ := Option.isSome_iff_exists.1 hplace.host
  obtain ⟨port, hport⟩ := Option.isSome_iff_exists.1 hplace.port
  unfold resolve
  simp only [trimEnd_of_visible hvisible, hseen, hbody, htake, hdrop, huser, Option.getD_none,
    hhost, hport, readTarget_of_plain hpath]
  exact ⟨_, rfl, rfl, rfl⟩

/-- The address of a plain path below an origin. -/
theorem exists_ofText {base : String} (hbase : IsOrigin base) {path : String}
    (hpath : IsPlainPath path.toList) :
    ∃ a, ofText (base ++ path) = .ok a ∧ a.user = none ∧
      a.target = String.ofList (resolvePath path.toList) := by
  obtain ⟨name, place, htext, hname, hplace⟩ := hbase
  have hlist : (base ++ path).toList = name ++ ':' :: '/' :: '/' :: (place ++ path.toList) := by
    rw [String.toList_append, htext]
    simp
  obtain ⟨scheme, hscheme⟩ := Option.isSome_iff_exists.1 hname
  unfold ofText
  rw [hlist, splitScheme?_origin hname]
  simp only [hscheme]
  exact resolve_place scheme hplace hpath

end Address

end PageExtract
