import StorageFeatures.Proofs.Object.Documents
import StorageFeatures.Proofs.Store.Frame

/-!
# What a store holds

Seen without metadata, a store holds at most one spec under each name of each of its two kinds,
and each of its seven calls is one of four operations on them. `Operation.serve` says what an
operation answers and what it leaves behind; `Conveys` says when the answer to a call means that.

* A type of objects that a store holds is `Storable`, and what is proved here is proved for both
  of them at once.
* **The contract** of a store is `Implements`: every call on a valid name is answered, and changes
  what is held, as its operation does.
* **The store in the caches** keeps that contract as long as its objects bear the names under which
  they stand (`MemoryStore.implements_serve`).
-/

namespace StorageFeatures

open Resource (displayName)

/-! ### Operations on contents -/

/-- What matters about an object beside its name. -/
inductive Content where
  | provisioner (spec : ProvisionerSpec)
  | capability (spec : ClassSpec)
  deriving DecidableEq

/-- The spec as it is written. -/
def Content.toJson : Content → Json
  | provisioner s => s.toJson
  | capability s => s.toJson

/-- A document of a kind that this library writes under a name. -/
def IsDocument (k : Kind) (n : String) (doc : Json) : Prop :=
  ∃ (m : Metadata) (c : Content), m.Proper n ∧ doc = capabilityToJson k m c.toJson

/-- A document of a kind that reads as an object of some name and content. -/
inductive Shows : Kind → String → Json → Content → Prop where
  | provisioner {n : String} {doc : Json} {p : ProvisionerCapability}
      (read : ProvisionerCapability.ofJson doc = .ok p) (proper : p.metadata.Proper n) :
      Shows .provisionerCapability n doc (.provisioner p.spec)
  | capability {n : String} {doc : Json} {c : ClassCapability}
      (read : ClassCapability.ofJson doc = .ok c) (proper : c.metadata.Proper n) :
      Shows .classCapability n doc (.capability c.spec)

/-- Whether a store holds objects of a kind. -/
def Kind.isCapability : Kind → Bool
  | provisionerCapability | classCapability => true
  | storageClass | snapshotClass => false

/-- What stands under the names of every kind. -/
abbrev Shelf (β : Type) := Kind → String → Option β

/-- Puts something under a name, or takes away what is there. -/
def Shelf.put (shelf : Shelf β) (k : Kind) (n : String) (o : Option β) : Shelf β :=
  fun k' n' => if k' = k ∧ n' = n then o else shelf k' n'

@[simp] theorem Shelf.put_self (shelf : Shelf β) (k : Kind) (n : String) (o : Option β) :
    shelf.put k n o k n = o :=
  if_pos ⟨rfl, rfl⟩

/-- Other names keep what is on the shelf. -/
theorem Shelf.put_of_ne (shelf : Shelf β) {k k' : Kind} {n n' : String} (o : Option β)
    (h : ¬ (k' = k ∧ n' = n)) : shelf.put k n o k' n' = shelf k' n' :=
  if_neg h

/-- A call on a store without the metadata of its object. -/
inductive Operation where
  | get (kind : Kind) (name : String)
  | create (kind : Kind) (name : String) (content : Content)
  | update (kind : Kind) (name : String) (content : Content)
  | delete (kind : Kind) (name : String)
  deriving DecidableEq

/-- What an operation comes to. -/
inductive Verdict where
  | object (name : String) (content : Content)
  /-- The object is absent, or deleted. -/
  | nothing
  /-- There is an object of that name already. -/
  | taken (kind : Kind) (name : String)
  /-- There is no object to replace or to delete. -/
  | missing
  deriving DecidableEq

/-- Carries out an operation. -/
def Operation.serve (contents : Shelf Content) : Operation → Verdict × Shelf Content
  | get k n =>
    match contents k n with
    | some c => (.object n c, contents)
    | none => (.nothing, contents)
  | create k n c =>
    match contents k n with
    | some _ => (.taken k n, contents)
    | none => (.object n c, contents.put k n (some c))
  | update k n c =>
    match contents k n with
    | some _ => (.object n c, contents.put k n (some c))
    | none => (.missing, contents)
  | delete k n =>
    match contents k n with
    | some _ => (.nothing, contents.put k n none)
    | none => (.missing, contents)

section Serve

variable {contents : Shelf Content} {k : Kind} {n : String} {c d : Content}

/-- An object that is there is found. -/
theorem Operation.serve_get_of_some (h : contents k n = some c) :
    (get k n).serve contents = (.object n c, contents) := by
  simp only [serve, h]

/-- An object that is not there is not found. -/
theorem Operation.serve_get_of_none (h : contents k n = none) :
    (get k n).serve contents = (.nothing, contents) := by
  simp only [serve, h]

/-- A name that is taken stays as it is. -/
theorem Operation.serve_create_of_some (h : contents k n = some d) :
    (create k n c).serve contents = (.taken k n, contents) := by
  simp only [serve, h]

/-- A name that is free gets the new object. -/
theorem Operation.serve_create_of_none (h : contents k n = none) :
    (create k n c).serve contents = (.object n c, contents.put k n (some c)) := by
  simp only [serve, h]

/-- An object that is there is replaced. -/
theorem Operation.serve_update_of_some (h : contents k n = some d) :
    (update k n c).serve contents = (.object n c, contents.put k n (some c)) := by
  simp only [serve, h]

/-- An object that is not there is not replaced. -/
theorem Operation.serve_update_of_none (h : contents k n = none) :
    (update k n c).serve contents = (.missing, contents) := by
  simp only [serve, h]

/-- An object that is there is taken away. -/
theorem Operation.serve_delete_of_some (h : contents k n = some d) :
    (delete k n).serve contents = (.nothing, contents.put k n none) := by
  simp only [serve, h]

/-- An object that is not there is not taken away. -/
theorem Operation.serve_delete_of_none (h : contents k n = none) :
    (delete k n).serve contents = (.missing, contents) := by
  simp only [serve, h]

end Serve

/-- The operation that a call asks for. -/
def StoreCall.operation : StoreCall → Operation
  | getProvisioner n => .get .provisionerCapability n
  | getCapability n => .get .classCapability n
  | createProvisioner p =>
    .create .provisionerCapability (displayName p) (.provisioner p.spec)
  | updateProvisioner p =>
    .update .provisionerCapability (displayName p) (.provisioner p.spec)
  | createCapability c => .create .classCapability (displayName c) (.capability c.spec)
  | updateCapability c => .update .classCapability (displayName c) (.capability c.spec)
  | deleteCapability n => .delete .classCapability n

/-- Whether the object that a call carries, if any, can be stored under its name. -/
def StoreCall.Proper : StoreCall → Prop
  | createProvisioner p | updateProvisioner p => p.metadata.Proper (displayName p)
  | createCapability c | updateCapability c => c.metadata.Proper (displayName c)
  | getProvisioner _ | getCapability _ | deleteCapability _ => True

/-- Whether a call is about a name that a server takes, and carries an object of that name. -/
structure StoreCall.Valid (call : StoreCall) : Prop where
  name : isValidName call.name = true
  object : call.Proper

/-- Whether the answer to a call means a verdict. An object that is answered can be stored again
under its name. -/
inductive Conveys : Except Fault StoreAnswer → Verdict → Prop where
  | provisioner {p : ProvisionerCapability} {n : String} (proper : p.metadata.Proper n) :
      Conveys (.ok (.provisioner p)) (.object n (.provisioner p.spec))
  | capability {c : ClassCapability} {n : String} (proper : c.metadata.Proper n) :
      Conveys (.ok (.capability c)) (.object n (.capability c.spec))
  | nothing : Conveys (.ok .nothing) .nothing
  | taken (k : Kind) (n : String) : Conveys (.error (.alreadyExists k.name n)) (.taken k n)
  | missing {fault : Fault} (h : fault.isNotFound = true) : Conveys (.error fault) .missing

/-- What a call came to, an answer and a state, is what an operation on the contents comes to. -/
structure Refines {σ : Type} (Holds : σ → Shelf Content → Prop) (contents : Shelf Content)
    (op : Operation) (r : Except Fault StoreAnswer × σ) : Prop where
  answer : Conveys r.1 (op.serve contents).1
  holds : Holds r.2 (op.serve contents).2

/-- Whoever answers as the contents demand and keeps them refines the operation. -/
theorem Refines.of_serve {σ : Type} {Holds : σ → Shelf Content → Prop}
    {contents contents' : Shelf Content} {op : Operation} {v : Verdict}
    (h : op.serve contents = (v, contents')) {r : Except Fault StoreAnswer × σ}
    (answer : Conveys r.1 v) (holds : Holds r.2 contents') : Refines Holds contents op r :=
  ⟨h ▸ answer, h ▸ holds⟩

/-- **The contract of a store.** A store whose states hold contents in some sense implements the
operations if every valid call is answered, and changes what is held, as they do. -/
def Implements {σ : Type} (store : CapabilityStore (StateM σ)) (Holds : σ → Shelf Content → Prop) :
    Prop :=
  ∀ ⦃call : StoreCall⦄, call.Valid → ∀ ⦃s : σ⦄ ⦃contents : Shelf Content⦄, Holds s contents →
    Refines Holds contents call.operation ((store call).run s)

/-! ### Objects that are held -/

/-- The specs that stand in the caches. -/
def Caches.contents (caches : Caches) : Shelf Content
  | .provisionerCapability, n => (caches.provisioners.peek n).map fun p => .provisioner p.spec
  | .classCapability, n => (caches.capabilities.peek n).map fun c => .capability c.spec
  | .storageClass, _ | .snapshotClass, _ => none

theorem Caches.contents_empty (k : Kind) (n : String) : ({} : Caches).contents k n = none := by
  cases k <;> rfl

/-- Every object can be stored under the name under which it stands. -/
def Cache.Proper {α : Type} [Resource α] (cache : Cache α) : Prop :=
  ∀ n a, cache.peek n = some a → (Resource.metadata a).Proper n

theorem Cache.proper_empty {α : Type} [Resource α] : ({} : Cache α).Proper := by
  intro n a h
  cases (NameMap.get?_empty n).symm.trans h

/-- Every object of a store in these caches can be stored under its name. -/
structure Caches.Proper (caches : Caches) : Prop where
  provisioners : caches.provisioners.Proper
  capabilities : caches.capabilities.Proper

/-- Types of objects that a store holds. -/
class Storable (α : Type) extends Watched α where
  content : α → Content
  answer : α → StoreAnswer
  metadata_withMetadata (a : α) (m : Metadata) : metadata (withMetadata a m) = m
  content_withMetadata (a : α) (m : Metadata) : content (withMetadata a m) = content a
  conveys_answer {a : α} {n : String} (h : (metadata a).Proper n) :
    Conveys (.ok (answer a)) (.object n (content a))
  contents_cache (caches : Caches) (n : String) :
    caches.contents kind n = ((cache caches).peek n).map content
  contents_withCache (caches : Caches) (c : Cache α) (k : Kind) (n : String) :
    (withCache caches c).contents k n =
      if k = kind then (c.peek n).map content else caches.contents k n
  synced_cache (caches : Caches) : (cache caches).synced = caches.isSynced kind
  proper_cache {caches : Caches} (h : caches.Proper) : (cache caches).Proper
  proper_withCache {caches : Caches} {c : Cache α} (h : caches.Proper) (hc : c.Proper) :
    (withCache caches c).Proper
  isCapability_kind : kind.isCapability = true
  toJson_eq (a : α) : toJson a = capabilityToJson kind (metadata a) (content a).toJson
  ofJson_of_stamped {a : α} {n : String} (h : (metadata a).Proper n) {uid : Option String}
    {version : String} {doc : Json} (stamped : Json.Stamped uid version (toJson a) doc) :
    ofJson doc = .ok (withMetadata a ((metadata a).stamped uid version))
  shows_of_ofJson {a : α} {n : String} {doc : Json} (read : ofJson doc = .ok a)
    (h : (metadata a).Proper n) : Shows kind n doc (content a)
  exists_of_shows {n : String} {doc : Json} {c : Content} (h : Shows kind n doc c) :
    ∃ a : α, ofJson doc = .ok a ∧ (metadata a).Proper n ∧ content a = c

instance : Storable ProvisionerCapability where
  content p := .provisioner p.spec
  answer := .provisioner
  metadata_withMetadata _ _ := rfl
  content_withMetadata _ _ := rfl
  conveys_answer := .provisioner
  contents_cache _ _ := rfl
  contents_withCache _ _ k _ := by cases k <;> rfl
  synced_cache _ := rfl
  proper_cache h := h.provisioners
  proper_withCache h hc := ⟨hc, h.capabilities⟩
  isCapability_kind := rfl
  toJson_eq _ := rfl
  ofJson_of_stamped h := ProvisionerCapability.ofJson_of_stamped h
  shows_of_ofJson := .provisioner
  exists_of_shows h := by
    cases h with
    | provisioner read proper => exact ⟨_, read, proper, rfl⟩

instance : Storable ClassCapability where
  content c := .capability c.spec
  answer := .capability
  metadata_withMetadata _ _ := rfl
  content_withMetadata _ _ := rfl
  conveys_answer := .capability
  contents_cache _ _ := rfl
  contents_withCache _ _ k _ := by cases k <;> rfl
  synced_cache _ := rfl
  proper_cache h := h.capabilities
  proper_withCache h hc := ⟨h.provisioners, hc⟩
  isCapability_kind := rfl
  toJson_eq _ := rfl
  ofJson_of_stamped h := ClassCapability.ofJson_of_stamped h
  shows_of_ofJson := .capability
  exists_of_shows h := by
    cases h with
    | capability read proper => exact ⟨_, read, proper, rfl⟩

section Storable

variable {α : Type} [Storable α] {caches : Caches}

open Resource (metadata kind)
open Storable (content)

/-- A document that was stamped shows the object that was sent. -/
theorem exists_of_stamped {a : α} {n : String} (ha : (metadata a).Proper n) {uid : Option String}
    {version : String} {doc : Json}
    (stamped : Json.Stamped uid version (Resource.toJson a) doc) :
    ∃ b : α, Resource.ofJson doc = .ok b ∧ (metadata b).Proper n ∧ content b = content a := by
  refine ⟨_, Storable.ofJson_of_stamped ha stamped, ?_, Storable.content_withMetadata _ _⟩
  rw [Storable.metadata_withMetadata]
  exact ha.stamped uid version

/-- Where one name of a cache changes, one name of the contents changes. -/
theorem Caches.contents_put {caches : Caches} {c : Cache α} {n : String} {o : Option α}
    (h : ∀ n', c.peek n' = if n' = n then o else (Watched.cache caches).peek n') :
    (Watched.withCache caches c).contents = caches.contents.put (kind α) n (o.map content) := by
  funext k n'
  rw [Storable.contents_withCache]
  by_cases hk : k = kind α
  · subst hk
    rw [if_pos rfl, h]
    by_cases hn : n' = n
    · rw [if_pos hn, hn, Shelf.put_self]
    · rw [if_neg hn, Shelf.put_of_ne _ _ fun h => hn h.2, Storable.contents_cache]
  · rw [if_neg hk, Shelf.put_of_ne _ _ fun h => hk h.1]

/-- Objects stay proper where one name changes to a proper object or to nothing. -/
theorem Caches.Proper.put (proper : caches.Proper) {c : Cache α} {n : String} {o : Option α}
    (h : ∀ n', c.peek n' = if n' = n then o else (Watched.cache caches).peek n')
    (ho : ∀ a ∈ o, (metadata a).Proper n) : (Watched.withCache caches c).Proper := by
  refine Storable.proper_withCache proper fun n' b hb => ?_
  rw [h] at hb
  split at hb
  · rename_i hn
    exact hn ▸ ho b hb
  · exact Storable.proper_cache proper n' b hb

/-- Metadata that a store rewrites stays proper. -/
theorem proper_withMetadata {a : α} (h : (metadata a).Proper (displayName a)) {m : Metadata}
    (hname : m.name = (metadata a).name) (hgeneration : m.generation = (metadata a).generation) :
    (metadata (Resource.withMetadata a m)).Proper (displayName a) := by
  rw [Storable.metadata_withMetadata]
  exact ⟨hname.trans h.name, hgeneration ▸ h.generation⟩

end Storable

/-! ### The store in the caches -/

namespace MemoryStore

/-- What is held in the caches, whose objects can all be stored under their names. -/
structure Stocks (s : MemoryStore × Caches) (contents : Shelf Content) : Prop where
  contents : s.2.contents = contents
  proper : s.2.Proper

/-- A store in the caches holds what they hold. Its objects stand under their names, and it was
not told to fail. -/
structure Holds (s : MemoryStore × Caches) (contents : Shelf Content) : Prop
    extends Stocks s contents where
  keyed : s.2.Keyed
  unarmed : s.1.failNext = none

/-- The answer before the state. -/
def outcome (r : MemoryStore × Caches × Except Fault StoreAnswer) :
    Except Fault StoreAnswer × MemoryStore × Caches :=
  (r.2.2, r.1, r.2.1)

section Storable

variable {α : Type} [Storable α] {caches : Caches} (store : MemoryStore)

open Resource (metadata kind)
open Storable (content)

/-- The store in the caches looks up what is stored. -/
theorem refines_get (h : caches.Proper) (n : String) :
    Refines Stocks caches.contents (.get (kind α) n) (outcome (store, caches,
      .ok ((((Watched.cache caches : Cache α).peek n).map Storable.answer).getD .nothing))) := by
  have hcontents := Storable.contents_cache (α := α) caches n
  cases hpeek : (Watched.cache caches : Cache α).peek n with
  | none =>
    rw [hpeek] at hcontents
    exact .of_serve (Operation.serve_get_of_none hcontents) .nothing ⟨rfl, h⟩
  | some a =>
    rw [hpeek] at hcontents
    have hanswer := Storable.conveys_answer (Storable.proper_cache h n a hpeek)
    exact .of_serve (Operation.serve_get_of_some hcontents) hanswer ⟨rfl, h⟩

/-- An object that was put into its cache is what is answered and what is held. -/
theorem refines_apply (h : caches.Proper) {a b : α} (hb : (metadata b).Proper (displayName a))
    (hsame : content b = content a) {op : Operation}
    (hserve : op.serve caches.contents = (.object (displayName a) (content a),
      caches.contents.put (kind α) (displayName a) (some (content a)))) :
    Refines Stocks caches.contents op (outcome (answer Storable.answer (store,
      Watched.withCache caches ((Watched.cache caches).apply b).1, .ok b))) := by
  have hname : displayName b = displayName a := hb.displayName
  have happly : ∀ n, ((Watched.cache caches).apply b).1.peek n =
      if n = displayName a then some b else (Watched.cache caches).peek n :=
    fun n => hname ▸ Cache.get?_apply _ b n
  have hcontents := Caches.contents_put happly
  rw [Option.map_some, hsame] at hcontents
  have hproper := h.put happly fun _ hc => Option.some.inj hc ▸ hb
  exact .of_serve hserve (hsame ▸ Storable.conveys_answer hb) ⟨hcontents, hproper⟩

/-- The store in the caches creates what is not stored. -/
theorem refines_create (h : caches.Proper) {a : α} (ha : (metadata a).Proper (displayName a)) :
    Refines Stocks caches.contents (.create (kind α) (displayName a) (content a))
      (outcome (answer Storable.answer (store.create caches a))) := by
  have hcontents := Storable.contents_cache (α := α) caches (displayName a)
  cases hpeek : (Watched.cache caches : Cache α).peek (displayName a) with
  | none =>
    rw [hpeek] at hcontents
    have hproper : (metadata (store.created a)).Proper (displayName a) :=
      proper_withMetadata ha rfl rfl
    have hsame : content (store.created a) = content a := Storable.content_withMetadata _ _
    rw [create_of_free store hpeek]
    exact refines_apply _ h hproper hsame (Operation.serve_create_of_none hcontents)
  | some b =>
    rw [hpeek] at hcontents
    rw [create_of_taken store (by simp [hpeek])]
    exact .of_serve (Operation.serve_create_of_some hcontents) (.taken _ _) ⟨rfl, h⟩

/-- The store in the caches replaces what is stored. -/
theorem refines_update (h : caches.Proper) {a : α} (ha : (metadata a).Proper (displayName a)) :
    Refines Stocks caches.contents (.update (kind α) (displayName a) (content a))
      (outcome (answer Storable.answer (store.update caches a))) := by
  have hcontents := Storable.contents_cache (α := α) caches (displayName a)
  cases hpeek : (Watched.cache caches : Cache α).peek (displayName a) with
  | none =>
    rw [hpeek] at hcontents
    rw [update_of_absent store hpeek]
    exact .of_serve (Operation.serve_update_of_none hcontents) (.missing rfl) ⟨rfl, h⟩
  | some b =>
    rw [hpeek] at hcontents
    have hproper : (metadata (store.updated a)).Proper (displayName a) :=
      proper_withMetadata ha rfl rfl
    have hsame : content (store.updated a) = content a := Storable.content_withMetadata _ _
    rw [update_of_present store (by simp [hpeek])]
    exact refines_apply _ h hproper hsame (Operation.serve_update_of_some hcontents)

end Storable

/-- The store in the caches deletes what is stored. -/
theorem refines_delete (store : MemoryStore) {caches : Caches} (h : caches.Proper) (n : String) :
    Refines Stocks caches.contents (.delete .classCapability n)
      (outcome (answer (fun _ => .nothing) (store.delete caches n))) := by
  have hcontents := Storable.contents_cache (α := ClassCapability) caches n
  cases hpeek : caches.capabilities.peek n with
  | none =>
    have hnone := hcontents.trans (congrArg (Option.map _) hpeek)
    rw [delete_of_absent store hpeek]
    exact .of_serve (Operation.serve_delete_of_none hnone) (.missing rfl) ⟨rfl, h⟩
  | some c =>
    have hsome := hcontents.trans (congrArg (Option.map _) hpeek)
    have hremove := Cache.get?_remove caches.capabilities n
    have hgone := Caches.contents_put (α := ClassCapability) hremove
    have hproper := h.put (α := ClassCapability) hremove fun _ ho => nomatch ho
    rw [delete_of_present store hpeek]
    exact .of_serve (Operation.serve_delete_of_some hsome) .nothing ⟨hgone, hproper⟩

/-- A call that meets no fault comes to what its operation comes to. -/
theorem refines_perform (store : MemoryStore) {caches : Caches} (h : caches.Proper)
    {call : StoreCall} (valid : call.Valid) :
    Refines Stocks caches.contents call.operation (outcome (store.perform caches call)) := by
  cases call with
  | getProvisioner n => exact refines_get (α := ProvisionerCapability) store h n
  | getCapability n => exact refines_get (α := ClassCapability) store h n
  | createProvisioner p => exact refines_create store h valid.object
  | updateProvisioner p => exact refines_update store h valid.object
  | createCapability c => exact refines_create store h valid.object
  | updateCapability c => exact refines_update store h valid.object
  | deleteCapability n => exact refines_delete store h n

/-- **The store in the caches implements the operations.** -/
theorem implements_serve : Implements MemoryStore.serve Holds := by
  rintro call valid ⟨store, caches⟩ _ ⟨⟨rfl, proper⟩, keyed, unarmed⟩
  obtain ⟨hunarmed, store', hrun⟩ := run_of_unarmed caches call unarmed
  have hkeyed := (touched_run caches call store).keyed keyed
  have hserve : (MemoryStore.serve call).run (store, caches) = outcome (store.run caches call) :=
    rfl
  rw [hrun] at hunarmed hkeyed
  rw [hserve, hrun]
  obtain ⟨hanswer, hstocks⟩ := refines_perform store' proper valid
  exact ⟨hanswer, hstocks, hkeyed, hunarmed⟩

end MemoryStore

end StorageFeatures
