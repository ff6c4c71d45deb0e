import StorageFeatures.Proofs.Api.Targets
import StorageFeatures.Proofs.Store.Contents

/-!
# The store of an object server

`Api.ObjectServer` is an API server that keeps documents by kind and name, as a state machine with
the laws that its answers obey. Of the documents that it is sent only those matter that this
library writes, and nothing is asked about versions but that every document that is kept has one:
the server may count them, repeat them or refuse to compare them.

* What the server keeps **mirrors** contents if every document under a valid name reads as an
  object of that name with the spec of the contents (`Api.Mirrors`).
* **The store of the server** implements the operations on what is mirrored
  (`Api.ObjectServer.implements_run`): each call is one request, and its answer, be it an error or a
  document, is read as the verdict of its operation.
-/

namespace StorageFeatures

namespace Http.Response

/-- An error with a code and a reason. -/
def Refuses (r : Response) (code : Nat) (reason : String) : Prop :=
  r.status = code ∧ ∃ e, Api.document? ErrorResponse.ofJson r.body = some e ∧ e.code = code ∧
    e.reason = reason

/-- A document. -/
def Returns (r : Response) (doc : Json) : Prop :=
  r.isError = false ∧ Json.parse r.body = .ok doc

end Http.Response

namespace Api

/-- A server that keeps documents of every kind by name. -/
structure ObjectServer where
  State : Type
  /-- The documents that are kept. -/
  stored : State → Shelf Json
  answer : Http.Request → State → Http.Response × State
  /-- A document that is missing is neither found nor replaced nor deleted. -/
  missing {s : State} {k : Kind} {n : String} (valid : isValidName n = true)
    (h : stored s k n = none) (method : String) (about : method ∈ ["GET", "PUT", "DELETE"])
    (query : Option String) (body : Option Json) :
    (answer ⟨method, k.target n, query, body⟩ s).1.Refuses 404 "NotFound" ∧
      stored (answer ⟨method, k.target n, query, body⟩ s).2 = stored s
  found {s : State} {k : Kind} {n : String} {doc : Json} (valid : isValidName n = true)
    (h : stored s k n = some doc) (query : Option String) :
    (answer ⟨"GET", k.target n, query, none⟩ s).1.Returns doc ∧
      stored (answer ⟨"GET", k.target n, query, none⟩ s).2 = stored s
  /-- A name is not taken twice. -/
  taken {s : State} {k : Kind} {n : String} {doc sent : Json} (valid : isValidName n = true)
    (h : stored s k n = some doc) (hsent : IsDocument k n sent) (query : Option String) :
    (answer ⟨"POST", k.path, query, some sent⟩ s).1.Refuses 409 "AlreadyExists" ∧
      stored (answer ⟨"POST", k.path, query, some sent⟩ s).2 = stored s
  /-- A document that is created gets an identity and a version. -/
  created {s : State} {k : Kind} {n : String} {sent : Json} (valid : isValidName n = true)
    (h : stored s k n = none) (hsent : IsDocument k n sent) (query : Option String) :
    ∃ (uid version : String) (doc : Json), Json.Stamped (some uid) version sent doc ∧
      (answer ⟨"POST", k.path, query, some sent⟩ s).1.Returns doc ∧
      stored (answer ⟨"POST", k.path, query, some sent⟩ s).2 = (stored s).put k n (some doc)
  /-- A document is replaced whatever version the new one bears. -/
  replaced {s : State} {k : Kind} {n : String} {old sent : Json} (valid : isValidName n = true)
    (h : stored s k n = some old) (hsent : IsDocument k n sent) (query : Option String) :
    ∃ (uid : Option String) (version : String) (doc : Json), Json.Stamped uid version sent doc ∧
      (answer ⟨"PUT", k.target n, query, some sent⟩ s).1.Returns doc ∧
      stored (answer ⟨"PUT", k.target n, query, some sent⟩ s).2 = (stored s).put k n (some doc)
  /-- A document that is deleted is gone, and the answer is a status. -/
  removed {s : State} {k : Kind} {n : String} {old : Json} (valid : isValidName n = true)
    (h : stored s k n = some old) (query : Option String) (body : Option Json) :
    ∃ status : Json, isStatus status = true ∧ checkStatus status = .ok () ∧
      (answer ⟨"DELETE", k.target n, query, body⟩ s).1.Returns status ∧
      stored (answer ⟨"DELETE", k.target n, query, body⟩ s).2 = (stored s).put k n none

/-! ### Documents that mirror contents -/

/-- What is kept under a name, and the content that it shows. -/
inductive Mirrored (k : Kind) (n : String) : Option Json → Option Content → Prop where
  | absent : Mirrored k n none none
  | present {doc : Json} {c : Content} (h : Shows k n doc c) : Mirrored k n (some doc) (some c)

/-- Documents show contents under every valid name. -/
def Mirrors (docs : Shelf Json) (contents : Shelf Content) : Prop :=
  ∀ ⦃k : Kind⦄ ⦃n : String⦄, k.isCapability = true → isValidName n = true →
    Mirrored k n (docs k n) (contents k n)

/-- A document and its content can be put on both sides. -/
theorem Mirrors.put {docs : Shelf Json} {contents : Shelf Content} (h : Mirrors docs contents)
    {k : Kind} {n : String} {doc : Option Json} {c : Option Content} (hput : Mirrored k n doc c) :
    Mirrors (docs.put k n doc) (contents.put k n c) := by
  intro k' n' hk' valid
  by_cases heq : k' = k ∧ n' = n
  · obtain ⟨rfl, rfl⟩ := heq
    rw [Shelf.put_self, Shelf.put_self]
    exact hput
  · rw [Shelf.put_of_ne _ _ heq, Shelf.put_of_ne _ _ heq]
    exact h hk' valid

/-- Under a valid name either nothing stands on both sides or a document that shows the content. -/
theorem Mirrors.absent_or_present {docs : Shelf Json} {contents : Shelf Content}
    (h : Mirrors docs contents) {k : Kind} {n : String} (hk : k.isCapability = true)
    (valid : isValidName n = true) :
    (docs k n = none ∧ contents k n = none) ∨
      ∃ doc c, docs k n = some doc ∧ contents k n = some c ∧ Shows k n doc c := by
  have hmirrored := h hk valid
  generalize docs k n = stored at hmirrored
  generalize contents k n = held at hmirrored
  cases hmirrored with
  | absent => exact .inl ⟨rfl, rfl⟩
  | present shows => exact .inr ⟨_, _, rfl, rfl, shows⟩

/-! ### Answers that are read -/

section Answer

variable (call : StoreCall) {r : Http.Response}

/-- A refusal is read as such, with its code and its reason. -/
theorem readAnswer_of_refuses {code : Nat} {reason : String} (h : r.Refuses code reason)
    (hcode : 400 ≤ code ∧ code < 600) :
    ∃ e : ErrorResponse, e.code = code ∧ e.reason = reason ∧
      call.readAnswer r = call.refused e := by
  obtain ⟨rfl, e, hbody, hsame, hreason⟩ := h
  have herror : r.isError = true := by simpa [Http.Response.isError] using hcode
  have hread : errorOf r = e := by rw [errorOf, hbody, Option.getD_some]
  refine ⟨e, hsame, hreason, ?_⟩
  rw [StoreCall.readAnswer, read_of_isError _ herror, hread]

variable {call}

/-- A document that is returned is read by the call that asked for it. -/
theorem readAnswer_of_returns {doc : Json} (h : r.Returns doc) {answer : StoreAnswer}
    (hread : call.readDocument doc = .ok answer) : call.readAnswer r = .ok answer := by
  obtain ⟨herror, hparse⟩ := h
  have hdocument : document? call.readDocument r.body = some answer := by
    simp only [document?, hparse, hread]
    rfl
  simp only [StoreCall.readAnswer, read, herror, hdocument, Bool.false_eq_true, if_false]

/-- Documents that are answered to a call are read as objects of a type. -/
def ReadsAs (call : StoreCall) (α : Type) [Storable α] : Prop :=
  ∀ doc (a : α), Resource.ofJson doc = .ok a → call.readDocument doc = .ok (Storable.answer a)

end Answer

namespace ObjectServer

variable (server : ObjectServer)

/-- Carries a request to the server, which is always reached. -/
def transport : Transport (StateM server.State) := fun request => do
  let (response, s) := server.answer request (← get)
  set s
  return .ok response

/-- What the server keeps mirrors contents. -/
def Keeps (s : server.State) (contents : Shelf Content) : Prop := Mirrors (server.stored s) contents

variable {server}

/-- A call is one request. -/
theorem run_of_request {call : StoreCall} {request : Http.Request}
    (h : call.request = .ok request) (s : server.State) :
    (call.run server.transport).run s =
      (call.readAnswer (server.answer request s).1, (server.answer request s).2) := by
  rw [StoreCall.run, h]
  rfl

section Storable

variable {α : Type} [Storable α] {call : StoreCall} {s : server.State} {contents : Shelf Content}
  {n : String} {a : α}

open Resource (kind toJson metadata)
open Storable (content)

/-- Reading over the wire answers what is stored. -/
theorem refines_get (keeps : server.Keeps s contents) (valid : isValidName n = true)
    (hrequest : call.request = makeRequest "GET" ((kind α).target n) none)
    (hread : ReadsAs call α)
    (hrefused : ∀ e, e.reason = "NotFound" → call.refused e = .ok .nothing) :
    Refines server.Keeps contents (.get (kind α) n) ((call.run server.transport).run s) := by
  rw [makeRequest_target (kind α) "GET" none valid] at hrequest
  rw [run_of_request hrequest]
  obtain ⟨hstored, hcontents⟩ | ⟨_, _, hstored, hcontents, shows⟩ :=
    keeps.absent_or_present (Storable.isCapability_kind (α := α)) valid
  · obtain ⟨hrefuses, hsame⟩ := server.missing valid hstored "GET" (by simp) none none
    obtain ⟨e, -, hreason, hanswer⟩ := readAnswer_of_refuses call hrefuses (by decide)
    rw [hanswer, hrefused e hreason]
    exact .of_serve (Operation.serve_get_of_none hcontents) .nothing (by rwa [Keeps, hsame])
  · obtain ⟨hreturns, hsame⟩ := server.found valid hstored none
    obtain ⟨a, hofJson, proper, rfl⟩ := Storable.exists_of_shows (α := α) shows
    rw [readAnswer_of_returns hreturns (hread _ a hofJson)]
    exact .of_serve (Operation.serve_get_of_some hcontents) (Storable.conveys_answer proper)
      (by rwa [Keeps, hsame])

/-- An object that the server has kept is what is answered and what is mirrored. -/
theorem refines_stored (keeps : server.Keeps s contents) {s' : server.State}
    {r : Http.Response} {doc : Json} {uid : Option String} {version : String}
    (ha : (metadata a).Proper n) (stamped : Json.Stamped uid version (toJson a) doc)
    (hreturns : r.Returns doc)
    (hstored : server.stored s' = (server.stored s).put (kind α) n (some doc))
    (hread : ReadsAs call α)
    {op : Operation} (hserve : op.serve contents = (.object n (content a),
      contents.put (kind α) n (some (content a)))) :
    Refines server.Keeps contents op (call.readAnswer r, s') := by
  obtain ⟨b, hofJson, hb, hsame⟩ := exists_of_stamped ha stamped
  rw [readAnswer_of_returns hreturns (hread doc b hofJson)]
  refine .of_serve hserve (hsame ▸ Storable.conveys_answer hb) ?_
  rw [Keeps, hstored, ← hsame]
  exact keeps.put (.present (Storable.shows_of_ofJson hofJson hb))

/-- A creation over the wire stores the content, or is refused where one is stored. -/
theorem refines_create (keeps : server.Keeps s contents) (valid : isValidName n = true)
    (ha : (metadata a).Proper n)
    (hrequest : call.request = makeRequest "POST" ((kind α).path ++ "?") (some (toJson a)))
    (hread : ReadsAs call α)
    (hrefused : ∀ e, e.code = 409 → call.refused e = .error (.alreadyExists (kind α).name n)) :
    Refines server.Keeps contents (.create (kind α) n (content a))
      ((call.run server.transport).run s) := by
  rw [makeRequest_path_query] at hrequest
  rw [run_of_request hrequest]
  have hsent : IsDocument (kind α) n (toJson a) :=
    ⟨metadata a, content a, ha, Storable.toJson_eq a⟩
  obtain ⟨hstored, hcontents⟩ | ⟨_, _, hstored, hcontents, -⟩ :=
    keeps.absent_or_present (Storable.isCapability_kind (α := α)) valid
  · obtain ⟨uid, version, doc, stamped, hreturns, hput⟩ :=
      server.created valid hstored hsent (some "")
    exact refines_stored keeps ha stamped hreturns hput hread
      (Operation.serve_create_of_none hcontents)
  · obtain ⟨hrefuses, hsame⟩ := server.taken valid hstored hsent (some "")
    obtain ⟨e, hcode, -, hanswer⟩ := readAnswer_of_refuses call hrefuses (by decide)
    rw [hanswer, hrefused e hcode]
    exact .of_serve (Operation.serve_create_of_some hcontents) (.taken _ _)
      (by rwa [Keeps, hsame])

/-- An update over the wire replaces the content that is stored, or is refused where there is none.
-/
theorem refines_update (keeps : server.Keeps s contents) (valid : isValidName n = true)
    (ha : (metadata a).Proper n)
    (hrequest : call.request = makeRequest "PUT" ((kind α).target n ++ "?") (some (toJson a)))
    (hread : ReadsAs call α)
    (hrefused : ∀ e, call.refused e = .error (.api (.refused e))) :
    Refines server.Keeps contents (.update (kind α) n (content a))
      ((call.run server.transport).run s) := by
  rw [makeRequest_target_query (kind α) "PUT" _ valid] at hrequest
  rw [run_of_request hrequest]
  have hsent : IsDocument (kind α) n (toJson a) :=
    ⟨metadata a, content a, ha, Storable.toJson_eq a⟩
  obtain ⟨hstored, hcontents⟩ | ⟨_, _, hstored, hcontents, -⟩ :=
    keeps.absent_or_present (Storable.isCapability_kind (α := α)) valid
  · obtain ⟨hrefuses, hsame⟩ :=
      server.missing valid hstored "PUT" (by simp) (some "") (some (toJson a))
    obtain ⟨e, hcode, -, hanswer⟩ := readAnswer_of_refuses call hrefuses (by decide)
    rw [hanswer, hrefused e]
    exact .of_serve (Operation.serve_update_of_none hcontents)
      (.missing (decide_eq_true hcode)) (by rwa [Keeps, hsame])
  · obtain ⟨uid, version, doc, stamped, hreturns, hput⟩ :=
      server.replaced valid hstored hsent (some "")
    exact refines_stored keeps ha stamped hreturns hput hread
      (Operation.serve_update_of_some hcontents)

end Storable

/-- A deletion over the wire takes the content away, or is refused where there is none. -/
theorem refines_delete {s : server.State} {contents : Shelf Content} {n : String}
    (keeps : server.Keeps s contents) (valid : isValidName n = true) :
    Refines server.Keeps contents (.delete .classCapability n)
      (((StoreCall.deleteCapability n).run server.transport).run s) := by
  have hrequest : (StoreCall.deleteCapability n).request =
      .ok ⟨"DELETE", Kind.classCapability.target n, some "", some (.object [])⟩ :=
    makeRequest_target_query .classCapability "DELETE" (some (.object [])) valid
  rw [run_of_request hrequest]
  obtain ⟨hstored, hcontents⟩ | ⟨_, _, hstored, hcontents, -⟩ :=
    keeps.absent_or_present (k := .classCapability) rfl valid
  · obtain ⟨hrefuses, hsame⟩ :=
      server.missing valid hstored "DELETE" (by simp) (some "") (some (.object []))
    obtain ⟨e, hcode, -, hanswer⟩ :=
      readAnswer_of_refuses (.deleteCapability n) hrefuses (by decide)
    rw [hanswer]
    exact .of_serve (Operation.serve_delete_of_none hcontents)
      (.missing (decide_eq_true hcode)) (by rwa [Keeps, hsame])
  · obtain ⟨status, hstatus, hcheck, hreturns, hput⟩ :=
      server.removed valid hstored (some "") (some (.object []))
    -- the server answers a deletion with a status, which is read as nothing
    have hread : (StoreCall.deleteCapability n).readDocument status = .ok .nothing := by
      simp only [StoreCall.readDocument, readStatusOr, hstatus, hcheck, if_true]
      rfl
    rw [readAnswer_of_returns hreturns hread]
    refine .of_serve (Operation.serve_delete_of_some hcontents) .nothing ?_
    rw [Keeps, hput]
    exact keeps.put .absent

/-- **The store of an object server implements the operations.** -/
theorem implements_run (server : ObjectServer) :
    Implements (StoreCall.run server.transport) server.Keeps := by
  intro call valid s contents keeps
  have hname := valid.name
  have hobject := valid.object
  have hmap {α : Type} {r : Except Json.Mismatch α} {a : α} (f : α → StoreAnswer)
      (h : r = .ok a) : r.map f = .ok (f a) := congrArg (Except.map f) h
  have hnothing (e : ErrorResponse) (h : e.reason = "NotFound") :
      (if e.reason = "NotFound" then .ok .nothing else .error (.api (.refused e))) =
        (.ok .nothing : Except Fault StoreAnswer) := if_pos h
  have htaken (e : ErrorResponse) (kind n : String) (h : e.code = 409) :
      (.error (if e.code = 409 then .alreadyExists kind n else .api (.refused e))) =
        (.error (.alreadyExists kind n) : Except Fault StoreAnswer) := by rw [if_pos h]
  cases call with
  | getProvisioner n =>
    exact refines_get (α := ProvisionerCapability) keeps hname rfl (fun _ _ => hmap _) hnothing
  | getCapability n =>
    exact refines_get (α := ClassCapability) keeps hname rfl (fun _ _ => hmap _) hnothing
  | createProvisioner p =>
    exact refines_create (a := p) keeps hname hobject rfl (fun _ _ => hmap _) fun e => htaken e _ _
  | createCapability c =>
    exact refines_create (a := c) keeps hname hobject rfl (fun _ _ => hmap _) fun e => htaken e _ _
  | updateProvisioner p =>
    exact refines_update (a := p) keeps hname hobject rfl (fun _ _ => hmap _) fun _ => rfl
  | updateCapability c =>
    exact refines_update (a := c) keeps hname hobject rfl (fun _ _ => hmap _) fun _ => rfl
  | deleteCapability n => exact refines_delete keeps hname

end ObjectServer

end Api

end StorageFeatures
