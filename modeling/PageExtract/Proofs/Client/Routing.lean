/-
Which requests of a client reach what they are meant for.

An id is encoded as one part of a path. The part is written in characters that addresses hold as
they are, and it is read back as the id. Only the ids that are one or two points do not get through:
such a part is taken for a step within the path.

* `ClientCall.endpoint` — what a call is meant for;
* `isDot_idPart`, `isTwoDots_idPart` — which ids are taken for steps;
* `Endpoint.ofRequest_parts` — the endpoint of a path that is given in parts;
* `reaches_iff` — a call for an id reaches its endpoint exactly if the id is neither one nor two
  points.
-/
import PageExtract.Client.Basic
import PageExtract.Http.Endpoint
import PageExtract.Proofs.Address.Origin
import PageExtract.Proofs.Http.Percent

namespace PageExtract

/-- What a call is meant for. -/
def ClientCall.endpoint : ClientCall → Endpoint
  | health => .health
  | createProcessor _ => .createProcessor
  | listProcessors documentType => .listProcessors (documentType.filter (!·.isEmpty))
  | getProcessor id => .getProcessor id
  | deleteProcessor id => .deleteProcessor id
  | execute id _ => .executeProcessor id
  | route _ => .execute
  | validate _ _ => .validate
  | fingerprint _ => .fingerprint

/-! ### Ids as parts of paths -/

theorem Char.eq_of_toLower {c d : Char} (h : c.toLower = d) (hd : d.isLower = false) : c = d := by
  unfold Char.toLower at h
  split at h
  · rename_i hupper
    subst h
    exfalso
    simp only [Char.isLower, Bool.and_eq_false_iff, decide_eq_false_iff_not] at hd
    simp only [UInt32.le_iff_toNat_le, ge_iff_le] at hupper hd
    simp at hupper hd
    omega
  · exact h

theorem Char.eq_of_toLower_e {c : Char} (h : c.toLower = 'e') : c = 'e' ∨ c = 'E' := by
  unfold Char.toLower at h
  split at h
  · refine .inr (Char.ext (UInt32.toNat_inj.1 ?_))
    rename_i hupper
    have hval := congrArg (fun d : Char => d.val.toNat) h
    simp only [UInt32.le_iff_toNat_le, ge_iff_le] at hupper
    simp at hupper hval ⊢
    omega
  · exact .inl h

namespace Address

/-- The bytes of one point, however it is written. -/
theorem bytes?_point {part : List Char}
    (h : part.map Char.toLower = ".".toList ∨ part.map Char.toLower = "%2e".toList)
    (cs : List Char) : Percent.bytes? (part ++ cs) = (Percent.bytes? cs).map (46 :: ·) := by
  obtain h | h := h
  · obtain ⟨c, part, rfl, hc, hpart⟩ := List.map_eq_cons_iff.1 h
    obtain rfl : part = [] := List.map_eq_nil_iff.1 hpart
    obtain rfl : c = '.' := Char.eq_of_toLower hc (by decide)
    exact Percent.bytes?_cons (by decide) cs
  · obtain ⟨c, part, rfl, hc, hpart⟩ := List.map_eq_cons_iff.1 h
    obtain ⟨d, part, rfl, hd, hpart⟩ := List.map_eq_cons_iff.1 hpart
    obtain ⟨e, part, rfl, he, hpart⟩ := List.map_eq_cons_iff.1 hpart
    obtain rfl : part = [] := List.map_eq_nil_iff.1 hpart
    obtain rfl : c = '%' := Char.eq_of_toLower hc (by decide)
    obtain rfl : d = '2' := Char.eq_of_toLower hd (by decide)
    rw [List.cons_append, List.cons_append, List.cons_append, List.nil_append, Percent.bytes?]
    obtain rfl | rfl := Char.eq_of_toLower_e he <;> cases Percent.bytes? cs <;> rfl

theorem bytes?_of_isDot {part : List Char} (h : isDot part = true) :
    Percent.bytes? part = some [46] := by
  have hpoint : part.map Char.toLower = ".".toList ∨ part.map Char.toLower = "%2e".toList := by
    simpa [isDot] using h
  have hbytes := bytes?_point hpoint []
  rwa [List.append_nil] at hbytes

/-- A part that counts as two points consists of two parts that count as one. -/
theorem bytes?_of_isTwoDots {part : List Char} (h : isTwoDots part = true) :
    Percent.bytes? part = some [46, 46] := by
  have hcut : ∃ a b, (a = ".".toList ∨ a = "%2e".toList) ∧ (b = ".".toList ∨ b = "%2e".toList) ∧
      part.map Char.toLower = a ++ b := by
    simp only [isTwoDots, List.contains_cons, List.contains_nil, Bool.or_false, Bool.or_eq_true,
      beq_iff_eq] at h
    obtain h | h | h | h := h
    · exact ⟨_, _, .inl rfl, .inl rfl, h⟩
    · exact ⟨_, _, .inl rfl, .inr rfl, h⟩
    · exact ⟨_, _, .inr rfl, .inl rfl, h⟩
    · exact ⟨_, _, .inr rfl, .inr rfl, h⟩
  obtain ⟨a, b, ha, hb, hmap⟩ := hcut
  obtain ⟨p, q, rfl, rfl, rfl⟩ := List.map_eq_append_iff.1 hmap
  have hlast := bytes?_point hb []
  rw [List.append_nil] at hlast
  rw [bytes?_point ha q, hlast]
  rfl

end Address

/-- Whether addresses hold a character as it is and it parts nothing. -/
def isPartChar (c : Char) : Bool :=
  Address.isTargetChar c && c != '/' && c != '?' && c != '#'

theorem isPartChar_iff {c : Char} :
    isPartChar c = true ↔ Address.isTargetChar c = true ∧ c ≠ '/' ∧ c ≠ '?' ∧ c ≠ '#' := by
  simp [isPartChar, and_assoc]

namespace ClientCall

theorem toNat_lt_of_isUnreserved {c : Char} (h : Percent.isUnreserved c = true) :
    c.toNat < 128 := by
  simp only [Percent.isUnreserved, Bool.or_eq_true] at h
  obtain h | h := h
  · simp only [Char.isAlphanum, Char.isAlpha, Char.isUpper, Char.isLower, Char.isDigit,
      Bool.or_eq_true, Bool.and_eq_true, decide_eq_true_eq, UInt32.le_iff_toNat_le,
      ge_iff_le] at h
    simp at h
    omega
  · have hall : ['-', '_', '.', '!', '~', '*', '(', ')'].all (·.toNat < 128) = true := by decide
    exact of_decide_eq_true (List.all_eq_true.1 hall c (by simpa using h))

theorem isPartChar_of_isUnreserved {c : Char} (h : Percent.isUnreserved c = true) :
    isPartChar c = true := by
  have hall : ∀ n < 128, Percent.isUnreserved (Char.ofNat n) = true →
      isPartChar (Char.ofNat n) = true := by
    decide +kernel
  have hc := hall c.toNat (toNat_lt_of_isUnreserved h)
  rw [Char.ofNat_toNat] at hc
  exact hc h

section

variable {id : String}

theorem isPartChar_of_mem_idPart {c : Char} (hc : c ∈ (idPart id).toList) :
    isPartChar c = true := by
  obtain h | rfl | h := Percent.mem_encode hc
  · exact isPartChar_of_isUnreserved h
  · rfl
  · have hall : Percent.hexDigits.all isPartChar = true := by decide
    exact List.all_eq_true.1 hall c h

variable (hwhole : id.any Text.isHalf = false)

include hwhole

/-- An id is read back from its part. -/
theorem decode?_idPart : Percent.decode? (idPart id) = some id :=
  Percent.decode?_encode (by decide) hwhole

/-- An id is known from the bytes of its part. -/
theorem eq_of_bytes?_idPart {bs : List UInt8} {s : String}
    (hbytes : Percent.bytes? (idPart id).toList = some bs) (hs : Utf8.decode? bs = some s) :
    id = s := by
  have hdecode := decode?_idPart hwhole
  rw [Percent.decode?, hbytes, Option.bind_some, hs] at hdecode
  exact (Option.some.inj hdecode).symm

theorem idPart_ne_nil (hid : id ≠ "") : (idPart id).toList ≠ [] := by
  intro hnil
  refine hid (eq_of_bytes?_idPart hwhole (by rw [hnil]; rfl) ?_)
  cbv

/-- Only one point is taken for a step that stays where it is. -/
theorem isDot_idPart : Address.isDot (idPart id).toList = true ↔ id = "." := by
  refine ⟨fun h => ?_, ?_⟩
  · refine eq_of_bytes?_idPart hwhole (Address.bytes?_of_isDot h) ?_
    cbv
  · rintro rfl
    decide

/-- Only two points are taken for a step back. -/
theorem isTwoDots_idPart : Address.isTwoDots (idPart id).toList = true ↔ id = ".." := by
  refine ⟨fun h => ?_, ?_⟩
  · refine eq_of_bytes?_idPart hwhole (Address.bytes?_of_isTwoDots h) ?_
    cbv
  · rintro rfl
    decide

end

end ClientCall

/-! ### Paths in parts -/

/-- A path of some parts, with a slash before each of them. -/
def pathOf (parts : List (List Char)) : List Char := parts.flatMap ('/' :: ·)

theorem splitOn_append {p cs q : List Char} {qs : List (List Char)} (hp : '/' ∉ p)
    (hcs : Text.splitOn '/' cs = q :: qs) : Text.splitOn '/' (p ++ cs) = (p ++ q) :: qs := by
  induction p with
  | nil => exact hcs
  | cons c p ih =>
    simp only [List.mem_cons, not_or] at hp
    rw [List.cons_append, Text.splitOn, if_neg (Ne.symm hp.1), ih hp.2]
    rfl

/-- A text without the character is not cut at it. -/
theorem cutAt_of_not_mem {mark : Char} {cs : List Char} (h : mark ∉ cs) :
    Text.cutAt [mark] cs = none := by
  induction cs with
  | nil => rfl
  | cons c cs ih =>
    simp only [List.mem_cons, not_or] at h
    have hne : (mark == c) = false := by simpa using h.1
    simp [Text.cutAt, List.isPrefixOf, hne, ih h.2]

/-- A path is cut into its parts. -/
theorem splitOn_pathOf {parts : List (List Char)} (hparts : ∀ p ∈ parts, '/' ∉ p) :
    Text.splitOn '/' (pathOf parts) = [] :: parts := by
  induction parts with
  | nil => rfl
  | cons p parts ih =>
    have hrest := ih fun q hq => hparts q (List.mem_cons_of_mem p hq)
    rw [pathOf, List.flatMap_cons, List.cons_append, Text.splitOn, if_pos rfl]
    refine congrArg ([] :: ·) ?_
    exact (splitOn_append (hparts p List.mem_cons_self) hrest).trans (by rw [List.append_nil])

/-- A path without steps is what it is resolved to. -/
theorem resolvePath_pathOf {parts : List (List Char)} (hne : parts ≠ [])
    (hparts : ∀ p ∈ parts, '/' ∉ p)
    (hsteps : ∀ p ∈ parts, Address.isDot p = false ∧ Address.isTwoDots p = false) :
    Address.resolvePath (pathOf parts) = pathOf parts := by
  unfold Address.resolvePath
  rw [splitOn_pathOf hparts, List.drop_one, List.tail_cons,
    Address.resolveParts_of_plain [] parts hsteps]
  cases parts with
  | nil => exact absurd rfl hne
  | cons p parts => rfl

/-- A target that is only a path is cut into its parts; an empty last one does not count. -/
theorem Target.ofText_pathOf {parts : List (List Char)}
    (hchars : ∀ p ∈ parts, ∀ c ∈ p, c ≠ '/' ∧ c ≠ '?' ∧ c ≠ '#')
    (hlast : parts.getLast? ≠ some []) :
    Target.ofText (String.ofList (pathOf parts)) = ⟨parts, []⟩ := by
  have hpath : ∀ c ∈ pathOf parts, c ≠ '?' ∧ c ≠ '#' := by
    intro c hc
    obtain ⟨p, hp, hc⟩ := List.mem_flatMap.1 hc
    obtain rfl | hc := List.mem_cons.1 hc
    · decide
    · exact (hchars p hp c hc).2
  have hmeant : (pathOf parts).takeWhile (· != '#') = pathOf parts := by
    rw [List.takeWhile_eq_self_iff]
    exact fun c hc => by simpa using (hpath c hc).2
  have hcut : Text.cutAt ['?'] (pathOf parts) = none :=
    cutAt_of_not_mem fun h => (hpath _ h).1 rfl
  have hsplit : Text.splitOn '/' (pathOf parts) = [] :: parts :=
    splitOn_pathOf fun p hp h => (hchars p hp _ h).1 rfl
  unfold Target.ofText
  simp only [String.toList_ofList, hmeant, hcut, Option.getD_none, hsplit, List.drop_one,
    List.tail_cons]
  rw [if_neg hlast]

/-! ### Calls -/

namespace ClientCall

/-- What follows the id in the path of a call for an id. -/
def afterId : ClientCall → List (List Char)
  | execute _ _ => ["execute".toList]
  | _ => []

/-- The parts of the path of a call for an id. -/
def idParts (call : ClientCall) (id : String) : List (List Char) :=
  "processors".toList :: (idPart id).toList :: call.afterId

variable {call : ClientCall} {id : String}

/-- The path of a call for an id. -/
theorem toList_path (hcall : call.id? = some id) :
    (call.path ++ call.query).toList = pathOf (call.idParts id) := by
  unfold id? at hcall
  split at hcall <;> cases hcall <;>
    simp [path, query, idParts, afterId, pathOf]

theorem mem_idParts {p : List Char} (hp : p ∈ call.idParts id) :
    p = "processors".toList ∨ p = (idPart id).toList ∨ p = "execute".toList := by
  obtain rfl | hp := List.mem_cons.1 hp
  · exact .inl rfl
  obtain rfl | hp := List.mem_cons.1 hp
  · exact .inr (.inl rfl)
  unfold afterId at hp
  split at hp
  · exact .inr (.inr (List.mem_singleton.1 hp))
  · exact absurd hp List.not_mem_nil

/-- The characters of the parts are held by addresses as they are, and they part nothing. -/
theorem isTargetChar_of_mem_idParts {p : List Char} (hp : p ∈ call.idParts id) {c : Char}
    (hc : c ∈ p) : Address.isTargetChar c = true ∧ c ≠ '/' ∧ c ≠ '?' ∧ c ≠ '#' := by
  have hprocessors : "processors".toList.all isPartChar = true := by decide
  have hexecute : "execute".toList.all isPartChar = true := by decide
  rw [← isPartChar_iff]
  obtain rfl | rfl | rfl := mem_idParts hp
  · exact List.all_eq_true.1 hprocessors c hc
  · exact isPartChar_of_mem_idPart hc
  · exact List.all_eq_true.1 hexecute c hc

/-- The path of a call for an id is one that addresses hold as it is. -/
theorem isPlainPath_idParts : Address.IsPlainPath (pathOf (call.idParts id)) where
  head := rfl
  chars := by
    intro c hc
    obtain ⟨p, hp, hc⟩ := List.mem_flatMap.1 hc
    obtain rfl | hc := List.mem_cons.1 hc
    · decide
    · obtain ⟨hkept, -, hquestion, hsign⟩ := isTargetChar_of_mem_idParts hp hc
      exact ⟨hkept, hquestion, hsign⟩

/-- What arrives for a call for an id is its path, resolved. -/
theorem exists_request {c : Client} (hbase : Address.IsOrigin c.base)
    (hkey : ∀ key ∈ c.key, key.toList.all isKeyChar = true) (hcall : call.id? = some id)
    (hwhole : id.any Text.isHalf = false) :
    ∃ a, c.request call = .ok a ∧ a.request.method = call.method ∧
      a.request.target = String.ofList (Address.resolvePath (pathOf (call.idParts id))) := by
  have hpath : Address.IsPlainPath (call.path ++ call.query).toList := by
    rw [toList_path hcall]
    exact isPlainPath_idParts
  obtain ⟨a, ha, huser, htarget⟩ := Address.exists_ofText hbase hpath
  obtain ⟨auth, hauth⟩ : ∃ auth, c.authorization none = .ok auth := by
    unfold Client.authorization
    split
    · rename_i key hsome
      obtain ⟨hmem, -⟩ := Option.filter_eq_some_iff.1 hsome
      exact ⟨_, if_pos (hkey key hmem)⟩
    · exact ⟨_, rfl⟩
  rw [toList_path hcall] at htarget
  rw [← String.append_assoc] at ha
  rw [← huser] at hauth
  refine ⟨⟨a.hostText, auth, ⟨call.method, a.target, none, call.body⟩⟩, ?_, rfl, htarget⟩
  unfold Client.request
  rw [hcall, Option.any_some, hwhole, ha]
  simp only [Except.mapError, bind, Except.bind, hauth]
  rfl

/-- A path with an id that is read back from its part names the endpoint of the call. -/
theorem ofRequest_idParts (hcall : call.id? = some id) (hid : id ≠ "")
    (hwhole : id.any Text.isHalf = false) :
    Endpoint.ofRequest call.method (String.ofList (pathOf (call.idParts id))) =
      .ok call.endpoint := by
  have hpart : (idPart id).toList ≠ [] := idPart_ne_nil hwhole hid
  have hlast : (call.idParts id).getLast? ≠ some [] := by
    intro h
    obtain h | h | h := mem_idParts (List.mem_of_getLast? h)
    · exact absurd h (by decide)
    · exact hpart h.symm
    · exact absurd h (by decide)
  have htarget := Target.ofText_pathOf
    (fun p hp c hc => (isTargetChar_of_mem_idParts hp hc).2) hlast
  have hdecode : Percent.decode? (String.ofList (idPart id).toList) = some id := by
    rw [String.ofList_toList, decode?_idPart hwhole]
  have hnamed : ∀ resource : String → Resource,
      Resource.ofId resource (idPart id).toList = .ok (resource id) := fun resource => by
    rw [Resource.ofId, if_neg (by simpa using hpart), hdecode]
  unfold Endpoint.ofRequest
  rw [htarget]
  unfold id? at hcall
  split at hcall <;> cases hcall <;>
    simp [idParts, afterId, Resource.ofPath, isWord, hnamed] <;> rfl

/-- A path with one or two points for the id names something else or nothing. -/
theorem ofRequest_points (hcall : call.id? = some id) (hid : id = "." ∨ id = "..") :
    Endpoint.ofRequest call.method
      (String.ofList (Address.resolvePath (pathOf (call.idParts id)))) ≠ .ok call.endpoint := by
  have hget : ∀ s ∈ [".", ".."], Endpoint.ofRequest .get (String.ofList
      (Address.resolvePath (pathOf ["processors".toList, (idPart s).toList]))) ≠
        .ok (.getProcessor s) := by
    decide +kernel
  have hdelete : ∀ s ∈ [".", ".."], Endpoint.ofRequest .delete (String.ofList
      (Address.resolvePath (pathOf ["processors".toList, (idPart s).toList]))) ≠
        .ok (.deleteProcessor s) := by
    decide +kernel
  have hexecute : ∀ s ∈ [".", ".."], Endpoint.ofRequest .post (String.ofList
      (Address.resolvePath (pathOf ["processors".toList, (idPart s).toList,
        "execute".toList]))) ≠ .ok (.executeProcessor s) := by
    decide +kernel
  have hmem : id ∈ [".", ".."] := by simpa using hid
  unfold id? at hcall
  split at hcall <;> cases hcall
  · exact hget id hmem
  · exact hdelete id hmem
  · exact hexecute id hmem

end ClientCall

/-- A call for an id is sent to the origin of a server, and what arrives there names what the call
is meant for, with this id, exactly if the id is neither one nor two points. -/
theorem request_reaches_iff {c : Client} (hbase : Address.IsOrigin c.base)
    (hkey : ∀ key ∈ c.key, key.toList.all isKeyChar = true) {call : ClientCall} {id : String}
    (hcall : call.id? = some id) (hid : id ≠ "") (hwhole : id.any Text.isHalf = false) :
    ∃ a, c.request call = .ok a ∧
      (Endpoint.ofRequest a.request.method a.request.target = .ok call.endpoint ↔
        id ≠ "." ∧ id ≠ "..") := by
  obtain ⟨a, ha, hmethod, htarget⟩ := ClientCall.exists_request hbase hkey hcall hwhole
  refine ⟨a, ha, ?_⟩
  rw [hmethod, htarget]
  by_cases hpoints : id = "." ∨ id = ".."
  · have hne := ClientCall.ofRequest_points hcall hpoints
    exact ⟨fun h => absurd h hne, fun h => absurd hpoints (not_or.2 h)⟩
  · rw [not_or] at hpoints
    -- No part of the path is taken for a step, so that the path stays as it is.
    have hplain : Address.resolvePath (pathOf (call.idParts id)) = pathOf (call.idParts id) := by
      refine resolvePath_pathOf (List.cons_ne_nil _ _)
        (fun p hp h => (ClientCall.isTargetChar_of_mem_idParts hp h).2.1 rfl) fun p hp => ?_
      obtain rfl | rfl | rfl := ClientCall.mem_idParts hp
      · decide
      · exact ⟨Bool.eq_false_iff.2 fun h => hpoints.1 ((ClientCall.isDot_idPart hwhole).1 h),
          Bool.eq_false_iff.2 fun h => hpoints.2 ((ClientCall.isTwoDots_idPart hwhole).1 h)⟩
      · decide
    rw [hplain]
    exact ⟨fun _ => hpoints, fun _ => ClientCall.ofRequest_idParts hcall hid hwhole⟩

/-- A client of a server in the neighbourhood. -/
def localClient : Client := ⟨"http://rules.test:8080", some "key"⟩

theorem isOrigin_localClient : Address.IsOrigin localClient.base := by
  have hchars : "rules.test:8080".toList.all
      (fun c => decide (' ' < c) && !Address.endsHost c && c != '@') = true := by decide
  refine ⟨"http".toList, "rules.test:8080".toList, rfl, by decide, ⟨fun c hc => ?_, ?_, ?_⟩⟩
  · simpa [and_assoc] using List.all_eq_true.1 hchars c hc
  · cbv
  · decide

theorem keys_localClient : ∀ key ∈ localClient.key, key.toList.all isKeyChar = true := by decide

theorem request_reaches_iff_slash :
    Address.IsOrigin localClient.base ∧ "a/b ..%é".any Text.isHalf = false ∧
      ∃ a, localClient.request (.execute "a/b ..%é" (.map [])) = .ok a ∧
        Endpoint.ofRequest a.request.method a.request.target =
          .ok (.executeProcessor "a/b ..%é") := by
  have hcall : (ClientCall.execute "a/b ..%é" (.map [])).id? = some "a/b ..%é" := rfl
  have hwhole : "a/b ..%é".any Text.isHalf = false := by rw [Text.any_isHalf]; decide
  obtain ⟨a, ha, hiff⟩ :=
    request_reaches_iff isOrigin_localClient keys_localClient hcall (by decide) hwhole
  exact ⟨isOrigin_localClient, hwhole, a, ha, hiff.2 (by decide)⟩

/-- A call to run the processor whose id is two points reaches the endpoint that picks a processor
by itself. -/
theorem request_of_two_points :
    Address.IsOrigin localClient.base ∧
      ∃ a, localClient.request (.execute ".." (.map [])) = .ok a ∧
        Endpoint.ofRequest a.request.method a.request.target = .ok .execute ∧
        (ClientCall.execute ".." (.map [])).endpoint = .executeProcessor ".." := by
  have hcall : (ClientCall.execute ".." (.map [])).id? = some ".." := rfl
  have hwhole : "..".any Text.isHalf = false := by rw [Text.any_isHalf]; decide
  obtain ⟨a, ha, hmethod, htarget⟩ :=
    ClientCall.exists_request isOrigin_localClient keys_localClient hcall hwhole
  refine ⟨isOrigin_localClient, a, ha, ?_, rfl⟩
  rw [hmethod, htarget]
  decide +kernel

end PageExtract
