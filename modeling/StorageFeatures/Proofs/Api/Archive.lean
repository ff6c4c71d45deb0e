import StorageFeatures.Proofs.Api.Server
import StorageFeatures.Proofs.Object.RoundTrip

/-!
# A server that keeps texts

`Archive` is an object server in the small. It keeps the text of every document under its kind and
name, stamps what it is sent with the number of the write, and answers with the texts it keeps.
That it is an `Api.ObjectServer` (`Archive.server`) rests on text being read back as it was written
(`Json.parse_compact`).
-/

namespace StorageFeatures

open Json

namespace Json

/-! ### Members that are set -/

/-- The members with one name given anew. -/
def setMember (k : String) (j : Json) (ms : List (String × Json)) : List (String × Json) :=
  ms.filter (·.1 ≠ k) ++ [(k, j)]

/-- A filter by name hides the members of that name only. -/
theorem lookup_filter_ne (k k' : String) (ms : List (String × Json)) :
    lookup k' (ms.filter (·.1 ≠ k)) = if k' = k then none else lookup k' ms := by
  induction ms with
  | nil => simp
  | cons a r ih =>
    by_cases ha : a.1 = k
    · rw [List.filter_cons_of_neg (by simp [ha]), ih, lookup, ha]
      by_cases hk : k' = k <;> simp [hk]
    · rw [List.filter_cons_of_pos (by simp [ha]), lookup, ih, lookup]
      by_cases hk : k' = k
      · subst hk
        simp [Ne.symm ha]
      · simp [hk]

/-- A member that is set is seen under its own name only. -/
@[simp] theorem lookup_setMember (k k' : String) (j : Json) (ms : List (String × Json)) :
    lookup k' (setMember k j ms) = if k' = k then some j else lookup k' ms := by
  rw [setMember, lookup_append, lookup_filter_ne]
  by_cases hk : k' = k <;> simp [lookup, hk]

theorem nodup_setMember {ms : List (String × Json)} (h : (ms.map (·.1)).Nodup) (k : String)
    (j : Json) : ((setMember k j ms).map (·.1)).Nodup := by
  rw [setMember, List.map_append, List.nodup_append]
  refine ⟨h.sublist (List.filter_sublist.map _), by simp, ?_⟩
  intro a ha b hb hab
  obtain ⟨m, hm, rfl⟩ := List.mem_map.mp ha
  obtain rfl : b = k := by simpa using hb
  exact absurd hab (by simpa using (List.mem_filter.mp hm).2)

/-- A document with a member set in it can still be read back. -/
theorem readableMembers_setMember {depth : Nat} {ms : List (String × Json)} {k : String} {j : Json}
    (h : ReadableMembers depth ms) (hj : j.Readable depth) :
    ReadableMembers depth (setMember k j ms) := by
  rw [readableMembers_iff] at h ⊢
  intro a ha
  obtain ha | ha := List.mem_append.mp ha
  · exact h a (List.mem_filter.mp ha).1
  · obtain rfl := List.mem_singleton.mp ha
    exact hj

/-! ### Documents that are stamped -/

/-- The metadata with an identity, if one is given, and a version. -/
def stampMembers (uid : Option String) (version : String) (ms : List (String × Json)) :
    List (String × Json) :=
  setMember "resourceVersion" (.string version)
    (match uid with
      | some uid => setMember "uid" (.string uid) ms
      | none => ms)

/-- The document with an identity, if one is given, and a version in its metadata. -/
def stamp (uid : Option String) (version : String) : Json → Json
  | .object ms =>
    match lookup "metadata" ms with
    | some (.object metadata) =>
      .object (setMember "metadata" (.object (stampMembers uid version metadata)) ms)
    | _ => .object ms
  | j => j

end Json

/-! ### Documents that this library writes -/

theorem Content.readable_toJson (c : Content) : c.toJson.Readable 127 := by
  cases c with
  | provisioner s => exact s.readable_toJson (by decide)
  | capability s => exact s.readable_toJson (by decide)

section IsDocument

variable {k : Kind} {n : String} {m : Metadata} (c : Content)

/-- The stamp goes to the metadata and leaves the rest of the document. -/
theorem stamp_document (uid : Option String) (version : String) :
    stamp uid version (capabilityToJson k m c.toJson) =
      .object (setMember "metadata" (.object (stampMembers uid version m.members))
        [("apiVersion", .string k.apiVersion), ("kind", .string k.name), ("metadata", m.toJson),
          ("spec", c.toJson)]) := by
  simp [capabilityToJson, stamp, lookup, Metadata.toJson]

/-- What becomes of a document that this library writes is stamped. -/
theorem stamped_stamp (uid : Option String) (version : String) :
    Stamped (uid.or m.uid) version (capabilityToJson k m c.toJson)
      (stamp uid version (capabilityToJson k m c.toJson)) := by
  rw [stamp_document]
  have hmetadata : lookup "metadata" [("apiVersion", .string k.apiVersion),
      ("kind", .string k.name), ("metadata", m.toJson), ("spec", c.toJson)] =
      some (.object m.members) := by
    simp [lookup, Metadata.toJson]
  refine .intro (nodup_setMember (by simp) _ _) (fun k hk => ?_) hmetadata
    ((lookup_setMember ..).trans (if_pos rfl)) (fun k huid hversion => ?_) ?_ ?_
  · rw [lookup_setMember, if_neg hk]
  · cases uid <;> simp [stampMembers, huid, hversion]
  · cases uid <;> simp [stampMembers, Metadata.members, lookup_append]
  · simp [stampMembers]

/-- What becomes of a document that this library writes can be read. -/
theorem readable_stamp (h : m.Proper n) (uid : Option String) (version : String) :
    (stamp uid version (capabilityToJson k m c.toJson)).Readable 128 := by
  have hmembers : ReadableMembers 126 m.members :=
    Metadata.readable_members h.generation (by decide)
  have hstamped : ReadableMembers 126 (stampMembers uid version m.members) := by
    refine readableMembers_setMember ?_ trivial
    cases uid with
    | none => exact hmembers
    | some uid => exact readableMembers_setMember hmembers trivial
  rw [stamp_document]
  refine ⟨by decide, readableMembers_setMember ?_ ⟨by decide, hstamped⟩⟩
  exact ⟨trivial, trivial, ⟨by decide, hmembers⟩, c.readable_toJson, trivial⟩

end IsDocument

/-! ### The server -/

/-- Texts of documents by kind and name, and the number of writes so far. -/
structure Archive where
  texts : Shelf String := fun _ _ => none
  writes : Nat := 0

namespace Archive

/-- The document whose text is kept under a name. -/
def stored (a : Archive) : Shelf Json := fun k n =>
  (a.texts k n).bind fun text => (parse text).toOption

/-- Keeps a document and answers with it. -/
def keep (a : Archive) (k : Kind) (n : String) (doc : Json) : Http.Response × Archive :=
  (⟨200, compact doc⟩, ⟨a.texts.put k n (some (compact doc)), a.writes + 1⟩)

/-- An error with a code and a reason. -/
def refusal (code : Nat) (reason : String) : Http.Response :=
  ⟨code, compact (.object [("status", .string "Failure"), ("reason", .string reason),
    ("code", .nat code)])⟩

/-- The status of an operation that succeeded. -/
def success : Json := .object [("kind", .string "Status"), ("status", .string "Success")]

/-- The kind whose path a path is. -/
def kindOf? (path : String) : Option Kind := Kind.all.find? fun k => k.path = path

/-- The kind and the name of the object whose path a path is. -/
def locate? (path : String) : Option (Kind × String) :=
  let name := String.ofList (path.toList.reverse.takeWhile (· ≠ '/')).reverse
  (Kind.all.find? fun k => k.target name = path).map fun k => (k, name)

/-- The name that a document gives itself. -/
def nameOf? (doc : Json) : Option String := do
  match ← (← doc.get? "metadata").get? "name" with
  | .string n => some n
  | _ => none

/-- Answers a request about one object. -/
def answerAbout (a : Archive) (k : Kind) (n : String) (method : String) (body : Option Json) :
    Http.Response × Archive :=
  match a.texts k n, a.stored k n with
  | some text, some _ =>
    match method, body with
    | "GET", _ => (⟨200, text⟩, a)
    | "PUT", some sent => a.keep k n (stamp none (toString a.writes) sent)
    | "DELETE", _ => (⟨200, compact success⟩, { a with texts := a.texts.put k n none })
    | _, _ => (refusal 405 "MethodNotAllowed", a)
  | _, _ => (refusal 404 "NotFound", a)

def answer (request : Http.Request) (a : Archive) : Http.Response × Archive :=
  match request.method, request.body with
  | "POST", some sent =>
    match kindOf? request.path, nameOf? sent with
    | some k, some n =>
      match a.stored k n with
      | some _ => (refusal 409 "AlreadyExists", a)
      | none => a.keep k n (stamp (some (n ++ "-" ++ toString a.writes)) (toString a.writes) sent)
    | _, _ => (refusal 400 "BadRequest", a)
  | method, body =>
    match locate? request.path with
    | some (k, n) => a.answerAbout k n method body
    | none => (refusal 404 "NotFound", a)

theorem kindOf?_path (k : Kind) : kindOf? k.path = some k := by
  cases k <;> decide

/-- Kinds are told apart by their paths. -/
theorem path_injective {k k' : Kind} (h : k.path = k'.path) : k = k' := by
  have hk := kindOf?_path k
  rw [h, kindOf?_path] at hk
  exact (Option.some.inj hk).symm

/-- The path of an object tells its kind and its name. -/
theorem locate?_target (k : Kind) {n : String} (valid : isValidName n = true) :
    locate? (k.target n) = some (k, n) := by
  have hslash : ∀ c ∈ n.toList.reverse, (c ≠ '/' : Bool) = true := by
    intro c hc
    obtain h | rfl | rfl := mem_of_isValidName valid (List.mem_reverse.mp hc)
    · refine decide_eq_true ?_
      rintro rfl
      exact absurd h (by decide)
    · rfl
    · rfl
  have hreverse : (k.target n).toList.reverse =
      n.toList.reverse ++ '/' :: k.path.toList.reverse := by
    simp [Kind.target]
  -- the name is what stands behind the last slash
  have htake : (k.target n).toList.reverse.takeWhile (· ≠ '/') = n.toList.reverse := by
    rw [hreverse, List.takeWhile_append_of_pos hslash]
    simp
  -- with the name known, the target tells the kind
  have hkind : ∀ k', decide (k'.target n = k.target n) = decide (k' = k) := by
    intro k'
    refine decide_eq_decide.mpr ⟨fun h => ?_, fun h => h ▸ rfl⟩
    have hlist := congrArg String.toList h
    simp only [Kind.target, String.toList_append] at hlist
    have hpath := List.append_cancel_right (List.append_cancel_right hlist)
    exact path_injective (String.toList_inj.mp hpath)
  rw [locate?, htake, List.reverse_reverse, String.ofList_toList]
  simp only [hkind]
  cases k <;> rfl

/-- A document tells the name of its object. -/
theorem nameOf?_document (k : Kind) {m : Metadata} {n : String} (h : m.Proper n) (c : Content) :
    nameOf? (capabilityToJson k m c.toJson) = some n := by
  have hmetadata : (capabilityToJson k m c.toJson).get? "metadata" = some (.object m.members) := by
    simp [capabilityToJson, get?, lookup, Metadata.toJson]
  have hname : (Json.object m.members).get? "name" = some (.string n) := by
    simp [get?, Metadata.members, lookup_append, h.name]
  rw [nameOf?, hmetadata]
  show (Json.get? "name" (.object m.members)).bind _ = _
  rw [hname]
  rfl

section Laws

variable {a : Archive} {k : Kind} {n : String} {doc : Json}

/-- A refusal is read back with its code and its reason. -/
theorem refuses_refusal {code : Nat} (h : code ≤ 65535) (reason : String) :
    (refusal code reason).Refuses code reason := by
  have hreadable : (Json.object [("status", .string "Failure"), ("reason", .string reason),
      ("code", .nat code)]).Readable 128 := by
    have hword : (65535 : Int) ≤ Reading.wordMax := by decide
    have hlow : Int64.minValue.toInt ≤ 0 := by decide
    refine ⟨by decide, trivial, trivial, ⟨?_, ?_⟩, trivial⟩
    · exact Int.le_trans hlow (Int.natCast_nonneg code)
    · exact Int.le_trans (Int.ofNat_le.mpr h) hword
  refine ⟨rfl, ⟨"Failure", "", reason, code⟩, ?_, rfl, rfl⟩
  have hcode : readInteger 0 65535 "u16" (.nat code) = .ok code :=
    if_pos ⟨Int.natCast_nonneg code, Int.ofNat_le.mpr h⟩
  simp only [Api.document?, refusal, parse_compact hreadable]
  simp [ErrorResponse.ofJson, field, occurrences, lookup, hcode, readString, Json.require]
  rfl

/-- The answer to a document that is kept shows it as it is stored. -/
theorem returns_keep (h : doc.Readable 128) : (a.keep k n doc).1.Returns doc :=
  ⟨rfl, parse_compact h⟩

/-- What is stored after a text was put is what the text says. -/
theorem stored_put (texts : Shelf String) (writes : Nat) (o : Option String) :
    (Archive.mk (texts.put k n o) writes).stored =
      (Archive.mk texts writes).stored.put k n (o.bind fun text => (parse text).toOption) := by
  funext k' n'
  simp only [stored, Shelf.put]
  split <;> rfl

/-- A document that is kept is stored under its name, and nothing else changes. -/
theorem stored_keep (h : doc.Readable 128) :
    (a.keep k n doc).2.stored = a.stored.put k n (some doc) := by
  rw [keep, stored_put, Option.bind_some, parse_compact h]
  rfl

/-- A document that is stored has a text that reads as the document. -/
theorem exists_text (h : a.stored k n = some doc) :
    ∃ text, a.texts k n = some text ∧ parse text = .ok doc := by
  obtain ⟨text, htext, hparse⟩ := Option.bind_eq_some_iff.mp h
  refine ⟨text, htext, ?_⟩
  cases hresult : parse text with
  | error e => simp [hresult, Except.toOption] at hparse
  | ok j =>
    rw [hresult] at hparse
    exact congrArg _ (Option.some.inj hparse)

/-- A request on one object is answered for that object. -/
theorem answer_target (valid : isValidName n = true) {method : String}
    (about : method ∈ ["GET", "PUT", "DELETE"]) (query : Option String) (body : Option Json) :
    a.answer ⟨method, k.target n, query, body⟩ = a.answerAbout k n method body := by
  simp only [List.mem_cons, List.not_mem_nil, or_false] at about
  obtain rfl | rfl | rfl := about <;> simp [answer, locate?_target k valid]

/-- Whatever is asked about a missing object is refused, and nothing changes. -/
theorem answerAbout_of_missing (h : a.stored k n = none) (method : String) (body : Option Json) :
    a.answerAbout k n method body = (refusal 404 "NotFound", a) := by
  rw [answerAbout, h]
  cases a.texts k n <;> rfl

/-- A document that is sent is kept with a stamp, unless one is there. -/
theorem answer_document (query : Option String) {sent : Json} (h : IsDocument k n sent) :
    a.answer ⟨"POST", k.path, query, some sent⟩ =
      match a.stored k n with
      | some _ => (refusal 409 "AlreadyExists", a)
      | none =>
        a.keep k n (stamp (some (n ++ "-" ++ toString a.writes)) (toString a.writes) sent) := by
  obtain ⟨m, c, proper, rfl⟩ := h
  simp only [answer, kindOf?_path, nameOf?_document k proper c]

end Laws

/-- **The server that keeps texts is an object server.** -/
def server : Api.ObjectServer where
  State := Archive
  stored := stored
  answer request a := a.answer request
  missing valid h method about query body := by
    rw [answer_target valid about, answerAbout_of_missing h]
    exact ⟨refuses_refusal (by decide) _, rfl⟩
  found valid h query := by
    rw [answer_target valid (by simp)]
    obtain ⟨text, htext, hparse⟩ := exists_text h
    rw [answerAbout, htext, h]
    exact ⟨⟨rfl, hparse⟩, rfl⟩
  taken _ h hsent query := by
    rw [answer_document query hsent, h]
    exact ⟨refuses_refusal (by decide) _, rfl⟩
  created _ h hsent query := by
    rw [answer_document query hsent, h]
    obtain ⟨m, c, proper, rfl⟩ := hsent
    exact ⟨_, _, _, stamped_stamp c (some _) _, returns_keep (readable_stamp c proper _ _),
      stored_keep (readable_stamp c proper _ _)⟩
  replaced valid h hsent query := by
    rw [answer_target valid (by simp)]
    obtain ⟨text, htext, -⟩ := exists_text h
    obtain ⟨m, c, proper, rfl⟩ := hsent
    rw [answerAbout, htext, h]
    exact ⟨_, _, _, stamped_stamp c none _, returns_keep (readable_stamp c proper _ _),
      stored_keep (readable_stamp c proper _ _)⟩
  removed valid h query body := by
    rw [answer_target valid (by simp)]
    obtain ⟨text, htext, -⟩ := exists_text h
    have hreadable : success.Readable 128 := ⟨by decide, trivial, trivial, trivial⟩
    rw [answerAbout, htext, h]
    exact ⟨success, rfl, rfl, ⟨rfl, parse_compact hreadable⟩, stored_put ..⟩

end Archive

end StorageFeatures
